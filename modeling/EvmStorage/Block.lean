import EvmStorage.Fault
import EvmStorage.Numeral

namespace EvmStorage.Block

/-!
# Blocks

A block is named by its number or by a tag such as `latest`.  Numbers are
written in decimal digits or in hex digits behind a mark; every other text is
a tag.
-/

/-- The number that a text writes, which has to be a numeral. -/
def number
    (base : Numeral.Base)
    (s : List Char) :
    Except Fault Value :=
  match Numeral.read? base s with
  | some n => .ok (.int n)
  | none => .error (.misuse .notNumeral)

/-- The block that a text without blanks around it names. -/
def ofStripped (s : List Char) : Except Fault Value :=
  if !s.isEmpty && s.all Text.isDigitSign then
    number .ten s
  else if Numeral.hasHexMark s then
    number .sixteen s
  else
    .ok (.text (String.ofList s))

/--
The block that a value names by its plain text, which has to be one that can be
written.
-/
def ofValue (value : Value) : Except Fault Value :=
  if value.canShow then
    ofStripped (Text.strip value.plain.toList)
  else
    .error (.misuse .numberTooLong)

end EvmStorage.Block
