import EvmStorage.Bytes
import EvmStorage.Text.Printable

namespace EvmStorage.Text

/-!
# Quoted texts

A text stands between single quotes, or between double quotes if it holds a
single quote and no double one.  Backslash, the quote in use, line ends, tabs
and everything that is not printable are escaped.
-/

/-- The lower-case hex digits of a number, filled up with zeros to a width. -/
def hexPadded (width n : Nat) : List Char :=
  (Nat.toDigits 16 n).leftpad width '0'

/-- The quote that a text is put between. -/
def quoteFor (holdsSingle holdsDouble : Bool) : Char :=
  if holdsSingle && !holdsDouble then '"' else '\x27'

/--
The escape of a character inside a quoted text, if it is one of the named ones.
-/
def namedEscape? (quote c : Char) : Option (List Char) :=
  if c = quote ∨ c = '\\' then
    some ['\\', c]
  else if c = '\t' then
    some ['\\', 't']
  else if c = '\n' then
    some ['\\', 'n']
  else if c = '\r' then
    some ['\\', 'r']
  else
    none

/-- The form of a character inside a quoted text. -/
def quotedChar (quote c : Char) : List Char :=
  match namedEscape? quote c with
  | some escape => escape
  | none =>
      if isPrintable c then
        [c]
      else if c.toNat < 0x100 then
        '\\' :: 'x' :: hexPadded 2 c.toNat
      else if c.toNat < 0x10000 then
        '\\' :: 'u' :: hexPadded 4 c.toNat
      else
        '\\' :: 'U' :: hexPadded 8 c.toNat

/-- A text between quotes. -/
def quoted (s : String) : String :=
  let chars := s.toList
  let quote := quoteFor (chars.contains '\x27') (chars.contains '"')
  String.ofList (quote :: chars.flatMap (quotedChar quote) ++ [quote])

/-- The form of a byte inside a quoted byte string. -/
def quotedByte
    (quote : Char)
    (byte : UInt8) :
    List Char :=
  let c := Char.ofNat byte.toNat
  match namedEscape? quote c with
  | some escape => escape
  | none =>
      if 0x20 ≤ byte.toNat ∧ byte.toNat < 0x7f then
        [c]
      else
        '\\' :: 'x' :: hexPadded 2 byte.toNat

/-- A byte string between quotes, behind the letter b. -/
def quotedBytes (content : Bytes) : String :=
  let quote := quoteFor (content.contains 0x27) (content.contains 0x22)
  String.ofList ('b' :: quote :: content.flatMap (quotedByte quote) ++ [quote])

end EvmStorage.Text
