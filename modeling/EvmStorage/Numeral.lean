import EvmStorage.Bytes
import EvmStorage.Text.Blank
import EvmStorage.Text.Digit

namespace EvmStorage.Numeral

/-!
# Integers written as text

A numeral has blanks around it, at most one sign, a mark of its base where one
is allowed, and digits of any script with single underscores between them.
Decimal numerals have at most `maxDecimalDigits` digits, leading zeros
included; the other bases have no such limit.
-/

/-- How the base of a numeral is told. -/
inductive Base where
  | ten
  | sixteen
  | marked
  deriving DecidableEq, Repr

/-- The most digits of a decimal numeral. -/
def maxDecimalDigits : Nat :=
  4300

/--
A digit of any script as a Latin one, and a blank beyond ASCII as a space.
-/
def latin (c : Char) : Char :=
  match Text.digitValue? c with
  | some d => Nat.digitChar d
  | none => if 128 ≤ c.toNat ∧ Text.isBlank c then ' ' else c

/-- Whether a character may stand around a numeral. -/
def isPadding (c : Char) : Bool :=
  c == ' ' || ('\t' ≤ c && c ≤ '\r')

/-- A text without the padding at its two ends. -/
def trim (s : List Char) : List Char :=
  ((s.dropWhile isPadding).reverse.dropWhile isPadding).reverse

/-- The value of a digit in a base of at most sixteen. -/
def digitIn?
    (base : Nat)
    (c : Char) :
    Option Nat :=
  (hexValue? c).filter (· < base)

/-- The digits after the first one, each behind at most one underscore. -/
def laterDigits? (base : Nat) : List Char → Option (List Nat)
  | [] => some []
  | '_' :: c :: rest => do
      let digit ← digitIn? base c
      let digits ← laterDigits? base rest
      return digit :: digits
  | c :: rest => do
      let digit ← digitIn? base c
      let digits ← laterDigits? base rest
      return digit :: digits

/-- The digits of a text that begins with a digit. -/
def digits?
    (base : Nat) :
    List Char →
    Option (List Nat)
  | [] => none
  | c :: rest => do
      let digit ← digitIn? base c
      let digits ← laterDigits? base rest
      return digit :: digits

/-- The number that digits write, most significant first. -/
def ofDigits (base : Nat) (digits : List Nat) : Nat :=
  digits.foldl (fun total digit => total * base + digit) 0

/-- The number that a text of decimal digits writes. -/
def decimal? (s : List Char) : Option Nat := do
  let digits ← digits? 10 s
  if digits.length ≤ maxDecimalDigits then
    return ofDigits 10 digits
  else
    none

/-- A text without the underscore it may begin with. -/
def dropUnderscore : List Char → List Char
  | '_' :: rest => rest
  | s => s

/-- The number that digits write behind the mark of their base. -/
def afterMark?
    (base : Nat)
    (s : List Char) :
    Option Nat :=
  (digits? base (dropUnderscore s)).map (ofDigits base)

/-- The base that a mark stands for. -/
def baseOfMark? (c : Char) : Option Nat :=
  if c = 'x' ∨ c = 'X' then
    some 16
  else if c = 'o' ∨ c = 'O' then
    some 8
  else if c = 'b' ∨ c = 'B' then
    some 2
  else
    none

/--
The number of a text whose base is told by its mark.

Without a mark it is decimal, and it begins with a zero only if it is zero.
-/
def marked? : List Char → Option Nat
  | '0' :: c :: rest =>
      match baseOfMark? c with
      | some base => afterMark? base rest
      | none => (decimal? ('0' :: c :: rest)).filter (· == 0)
  | s => decimal? s

/-- The number of a text in hex digits, with or without a mark. -/
def hex? (s : List Char) : Option Nat :=
  if dropHexMark s = s then
    (digits? 16 s).map (ofDigits 16)
  else
    afterMark? 16 (dropHexMark s)

/-- The number of a text without a sign. -/
def unsigned? : Base → List Char → Option Nat
  | .ten, s => decimal? s
  | .sixteen, s => hex? s
  | .marked, s => marked? s

/-- The integer of a text that may begin with a sign. -/
def signed?
    (base : Base) :
    List Char →
    Option Int
  | '-' :: rest => (unsigned? base rest).map fun n => -(n : Int)
  | '+' :: rest => (unsigned? base rest).map fun n => (n : Int)
  | s => (unsigned? base s).map fun n => (n : Int)

/-- The integer that a text writes in a base. -/
def read?
    (base : Base)
    (s : List Char) :
    Option Int :=
  signed? base (trim (s.map latin))

/-- Whether a text begins with the mark of hex digits. -/
def hasHexMark (s : List Char) : Bool :=
  dropHexMark s != s

/--
The integer that a text writes in decimal, or in hex digits behind `0x`.

Leading zeros are allowed in both.
-/
def ofText? (text : String) : Option Int :=
  let s := Text.strip text.toList
  if hasHexMark (s.dropWhile (· == '-')) then
    read? .sixteen s
  else
    read? .ten s

end EvmStorage.Numeral
