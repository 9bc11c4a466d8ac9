import EvmStorage.Fault
import EvmStorage.Numeral

namespace EvmStorage.Label

/-!
# Labels of types

A label such as `uint256`, `bytes4` or `int8[2][3]` names an integer or a
byte string of fixed size, with the dimensions of an array behind it.  Digits
of every script count as digits, and one line end behind a label is ignored.
-/

/-- Whether a character is a decimal digit of some script. -/
def isDigit (c : Char) : Bool :=
  (Text.digitValue? c).isSome

/-- A text without the line end it may finish with. -/
def dropLineEnd (s : List Char) : List Char :=
  if s.getLast? = some '\n' then s.dropLast else s

/-- The digits between the last pair of brackets of a text that ends with it. -/
def lastDimension? (s : List Char) : Option (List Char) :=
  match (dropLineEnd s).reverse with
  | ']' :: rest =>
      match rest.dropWhile isDigit with
      | '[' :: _ => some (rest.takeWhile isDigit).reverse
      | _ => none
  | _ => none

/-- The number that the digits of a label write. -/
def numberOf (digits : List Char) : Except Fault Int :=
  match Numeral.read? .ten digits with
  | some n => .ok n
  | none => .error (.misuse .numeralTooLong)

/-- The two kinds of values whose size is a part of their label. -/
inductive DataKind where
  | int
  | bytes
  deriving DecidableEq, Repr

/-- The word that a kind of values is written with. -/
def DataKind.name : DataKind → String
  | .int => "int"
  | .bytes => "bytes"

/-- The parts of a label. -/
structure Parts where
  isUnsigned : Bool
  kind : DataKind
  size : List Char
  dimension : Option (List Char)
  deriving DecidableEq, Repr

/--
The digits of the last of the dimensions that a whole text consists of.

The first argument holds the digits since a bracket was opened, last one first.
-/
def dimensions? :
    (opened : Option (List Char)) →
    (last : Option (List Char)) →
    List Char →
    Option (Option (List Char))
  | none, last, [] => some last
  | none, last, '[' :: rest => dimensions? (some []) last rest
  | none, _, _ => none
  | some _, _, [] => none
  | some digits, last, c :: rest =>
      if c = ']' then
        dimensions? none (some digits.reverse) rest
      else if isDigit c then
        dimensions? (some (c :: digits)) last rest
      else
        none

/-- The kind that a text begins with, and the text behind. -/
def kind? : List Char → Option (DataKind × List Char)
  | 'i' :: 'n' :: 't' :: rest => some (.int, rest)
  | 'b' :: 'y' :: 't' :: 'e' :: 's' :: rest => some (.bytes, rest)
  | _ => none

/--
The parts of a label that names an integer or a byte string of fixed size.
-/
def parts? (label : String) : Option Parts := do
  let s := dropLineEnd label.toList
  let (isUnsigned, rest) :=
    match s with
    | 'u' :: rest => (true, rest)
    | _ => (false, s)
  let (kind, rest) ← kind? rest
  let size := rest.takeWhile isDigit
  if size.isEmpty then
    none
  else
    let dimension ← dimensions? none none (rest.dropWhile isDigit)
    return { isUnsigned, kind, size, dimension }

end EvmStorage.Label
