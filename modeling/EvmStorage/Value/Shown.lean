import EvmStorage.Numeral
import EvmStorage.Text.Quoted
import EvmStorage.Value

namespace EvmStorage.Value

/-!
# Values in messages

Messages show a value in one of two ways.  Quoted, texts stand between quotes
wherever they are; plain, a text that is the whole value stands as it is.
Integers are shown in decimal, and only up to the length that a decimal
numeral may have; a value that holds a longer one cannot be shown.
-/

mutual

/-- A value with all its texts quoted. -/
def quoted : Value → String
  | .null => "None"
  | .bool flag => if flag then "True" else "False"
  | .int n => toString n
  | .float x => x.text
  | .text s => Text.quoted s
  | .bytes content => Text.quotedBytes content
  | .list items => "[" ++ String.intercalate ", " (quotedItems items) ++ "]"
  | .record fields =>
    "\x7b" ++ String.intercalate ", " (quotedFields fields) ++ "\x7d"
  | .struct members =>
    "\x7b" ++ String.intercalate ", " (quotedMembers members) ++ "\x7d"

/-- The items of a list, each quoted. -/
def quotedItems : List Value → List String
  | [] => []
  | item :: rest => quoted item :: quotedItems rest

/-- The fields of a record, each with its quoted name and value. -/
def quotedFields : List (String × Value) → List String
  | [] => []
  | (name, value) :: rest =>
    (Text.quoted name ++ ": " ++ quoted value) :: quotedFields rest

/-- The members of a struct, each with its quoted label and value. -/
def quotedMembers : List (Value × Value) → List String
  | [] => []
  | (label, value) :: rest =>
    (quoted label ++ ": " ++ quoted value) :: quotedMembers rest

end

/-- The least magnitude that is too long to be written in decimal. -/
def writableBound : Nat :=
  Nat.pow 10 Numeral.maxDecimalDigits

/-- Whether an integer can be written in decimal. -/
def canWriteInt (n : Int) : Bool :=
  n.natAbs < writableBound

mutual

/-- Whether all integers of a value can be written in decimal. -/
def canShow : Value → Bool
  | .int n => canWriteInt n
  | .list items => canShowItems items
  | .record fields => canShowFields fields
  | .struct members => canShowMembers members
  | _ => true

/-- Whether all items of a list can be shown. -/
def canShowItems : List Value → Bool
  | [] => true
  | item :: rest => canShow item && canShowItems rest

/-- Whether all fields of a record can be shown. -/
def canShowFields : List (String × Value) → Bool
  | [] => true
  | (_, value) :: rest => canShow value && canShowFields rest

/-- Whether all members of a struct can be shown. -/
def canShowMembers : List (Value × Value) → Bool
  | [] => true
  | (label, value) :: rest =>
    canShow label && canShow value && canShowMembers rest

end

/-- A value as it stands in running text. -/
def plain : Value → String
  | .text s => s
  | value => quoted value

end EvmStorage.Value
