import EvmStorage.Text.Quoted
import EvmStorage.Value

namespace EvmStorage.Json

/-!
# Writing JSON

The canonical text of a document has the names of every object in the order
of their code points, one space behind each comma and colon, and only ASCII
characters.  Two documents have the same text exactly if they differ in the
order of names alone.
-/

/-- The four hex digits of an escape. -/
def writeUnit (unit : Nat) : List Char :=
  '\\' :: 'u' :: Text.hexPadded 4 unit

/-- A character inside a string. -/
def writeChar (c : Char) : List Char :=
  if c = '"' ∨ c = '\\' then
    ['\\', c]
  else if c = '\n' then
    ['\\', 'n']
  else if c = '\r' then
    ['\\', 'r']
  else if c = '\t' then
    ['\\', 't']
  else if c = '\x08' then
    ['\\', 'b']
  else if c = '\x0c' then
    ['\\', 'f']
  else if 0x20 ≤ c.toNat ∧ c.toNat < 0x7f then
    [c]
  else if c.toNat < 0x10000 then
    writeUnit c.toNat
  else
    writeUnit (0xd800 + (c.toNat - 0x10000) / 0x400) ++
      writeUnit (0xdc00 + (c.toNat - 0x10000) % 0x400)

/-- A string between its quotes. -/
def writeString (s : String) : String :=
  String.ofList ('"' :: s.toList.flatMap writeChar ++ ['"'])

/-- A floating-point number. -/
def writeFloat : Binary64 → String
  | .nan => "NaN"
  | .infinite negative => if negative then "-Infinity" else "Infinity"
  | x => x.text

/-- Fields in the order of their names. -/
def sortFields (fields : List (String × String)) : List (String × String) :=
  fields.mergeSort fun a b => decide (a.1 ≤ b.1)

mutual

/--
The canonical text of a document.

A byte string is written as its hex text, and a struct as the array of its
labels and values.
-/
def write : Value → String
  | .null => "null"
  | .bool flag => if flag then "true" else "false"
  | .int n => toString n
  | .float x => writeFloat x
  | .text s => writeString s
  | .bytes content => writeString (Bytes.toMarkedHex content)
  | .list items => "[" ++ String.intercalate ", " (writeItems items) ++ "]"
  | .record fields =>
      let sorted := sortFields (writeFields fields)
      "\x7b" ++
        String.intercalate ", "
          (sorted.map fun (name, value) => writeString name ++ ": " ++ value) ++
        "\x7d"
  | .struct members =>
    "[" ++ String.intercalate ", " (writeMembers members) ++ "]"

/-- The texts of the items of an array. -/
def writeItems : List Value → List String
  | [] => []
  | item :: rest => write item :: writeItems rest

/-- The names of the fields of an object with the texts of their values. -/
def writeFields : List (String × Value) → List (String × String)
  | [] => []
  | (name, value) :: rest => (name, write value) :: writeFields rest

/-- The texts of the members of a struct. -/
def writeMembers : List (Value × Value) → List String
  | [] => []
  | (label, value) :: rest =>
      ("[" ++ write label ++ ", " ++ write value ++ "]") :: writeMembers rest

end

end EvmStorage.Json
