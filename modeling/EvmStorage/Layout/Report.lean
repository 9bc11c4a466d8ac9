import EvmStorage.Json.Reader
import EvmStorage.Layout

namespace EvmStorage.Layout

/-!
# Reading layout reports

A report is a JSON object with a list `storage` of variables and a table
`types`; it may also stand under `storageLayout` in the output of a compiler.
Numbers are given as integers or as texts.  A part that is missing is told
apart from one that has the wrong JSON kind.
-/

/-- A part of an object, or the fault of its absence. -/
def require
    (fields : List (String × Value))
    (part : String)
    (missing : String → Fault) :
    Except Fault Value :=
  match Value.field? fields part with
  | some value => .ok value
  | none => .error (missing part)

/-- A part of an object that is there and is not null. -/
def given?
    (fields : List (String × Value))
    (part : String) :
    Option Value :=
  match Value.field? fields part with
  | some .null => none
  | found => found

/-- The integer that a report gives as a number or as a text. -/
def readInt
    (value : Value)
    (what : String) :
    Except Fault Int :=
  let invalid : Except Fault Int := .error (.schema (.invalidNumber what value))
  match value with
  | .int n => .ok n
  | .bool _ => invalid
  | _ =>
      match Numeral.read? .marked value.plain.toList with
      | some n => .ok n
      | none => invalid

/--
A variable or a member from its fields.

`owner` stands in front of the label wherever a message names the variable.
-/
def readVariable
    (owner : String)
    (missing : String → Fault)
    (fields : List (String × Value)) :
    Except Fault Variable := do
  let label ← require fields "label" missing
  let type ← require fields "type" missing
  let slotValue ← require fields "slot" missing
  let slot ← readInt slotValue ("slot of `" ++ owner ++ label.plain ++ "`")
  let offsetValue := (Value.field? fields "offset").getD (.int 0)
  let offset ← readInt offsetValue
    ("offset of `" ++ owner ++ label.plain ++ "`")
  return { label, type, slot, offset }

/-- A variable or a member from a part of a report that must be an object. -/
def readEntry
    (owner : String)
    (missing : String → Fault)
    (part : ReportPart) :
    Value →
    Except Fault Variable
  | .record fields => readVariable owner missing fields
  | _ => .error (.misuse (.partOfWrongKind part))

/-- The members of a struct from a part of a report that must be a list. -/
def readMembers
    (id : String) :
    Value →
    Except Fault (List Variable)
  | .list entries =>
      entries.mapM
        (readEntry (id ++ ".")
          (fun part => .schema (.memberPartMissing id part)) .memberEntry)
  | .text s =>
      if s.isEmpty then
        .ok []
      else
        .error (.misuse (.partOfWrongKind .memberEntry))
  | .record fields =>
      if fields.isEmpty then
        .ok []
      else
        .error (.misuse (.partOfWrongKind .memberEntry))
  | _ => .error (.misuse (.partOfWrongKind .memberList))

/-- The encoding of a type. -/
def readEncoding
    (id : String)
    (value : Value) :
    Except Fault Encoding :=
  let unknown : Except Fault Encoding :=
    .error (.schema (.unknownEncoding id value))
  match value with
  | .text name =>
      match Encoding.ofName? name with
      | some encoding => .ok encoding
      | none => unknown
  | _ => unknown

/-- A type from its fields. -/
def readTypeFields
    (id : String)
    (fields : List (String × Value)) :
    Except Fault TypeEntry := do
  let missing (part : String) : Fault := .schema (.typePartMissing id part)
  let label ← require fields "label" missing
  let encodingValue ← require fields "encoding" missing
  let sizeValue ← require fields "numberOfBytes" missing
  let size ← readInt sizeValue ("numberOfBytes of `" ++ id ++ "`")
  let encoding ← readEncoding id encodingValue
  let members ← (given? fields "members").mapM (readMembers id)
  let base := given? fields "base"
  let key := given? fields "key"
  let value := given? fields "value"
  if encoding = .mapping ∧ (key.isNone ∨ value.isNone) then
    .error (.schema (.mappingPartMissing id))
  else if encoding = .dynamicArray ∧ base.isNone then
    .error (.schema (.elementTypeMissing id))
  else
    return { id, label, encoding, size, base, key, value, members }

/-- A type from the part of a report that describes it. -/
def readType :
    String × Value →
    Except Fault TypeEntry
  | (id, .record fields) => readTypeFields id fields
  | (id, entry) => .error (.schema (.typeNotObject id entry.kindName))

/--
The table of types of a report; a part that counts as false is an empty table.
-/
def readTypes (part : Option Value) : Except Fault (List TypeEntry) :=
  match part.filter Value.truthy with
  | none => .ok []
  | some (.record entries) => entries.mapM readType
  | some _ => .error (.misuse (.partOfWrongKind .typeTable))

/-- The variables of a report; a part that counts as false is an empty list. -/
def readVariables (part : Value) : Except Fault (List Variable) :=
  if !part.truthy then
    .ok []
  else
    match part with
    | .list entries =>
        entries.mapM
          (readEntry ""
            (fun part => .schema (.variablePartMissing part)) .variableEntry)
    | .text _ | .record _ => .error (.misuse (.partOfWrongKind .variableEntry))
    | _ => .error (.misuse (.partOfWrongKind .variableList))

/--
The object that holds the list of variables, in the report or in what it stands
under.
-/
def unwrap (fields : List (String × Value)) : List (String × Value) :=
  match Value.field? fields "storage", Value.field? fields "storageLayout" with
  | none, some (.record inner) => inner
  | _, _ => fields

/-- The layout that a report describes. -/
def ofReport (report : Value) : Except Fault Layout :=
  match report with
  | .record outer =>
      let fields := unwrap outer
      match Value.field? fields "storage" with
      | none => .error (.schema .storageMissing)
      | some storage => do
          let types ← readTypes (Value.field? fields "types")
          let stateVariables ← readVariables storage
          if stateVariables.all fun entry => entry.label.isLabel then
            return { stateVariables, types }
          else
            .error (.misuse (.partOfWrongKind .variableLabel))
  | _ => .error (.schema .reportNotObject)

/-- A file that holds a report, if it is there. -/
abbrev File := Option Bytes

/-- The text that bytes write in UTF-8, if they do. -/
def utf8? (content : Bytes) : Option String :=
  String.fromUTF8? (ByteArray.mk content.toArray)

/--
The layout of a file, found under a path, if it is not nested deeper than so
many levels.
-/
def ofFileWithin
    (levels : Nat)
    (path : String)
    (file : File) :
    Except Fault Layout :=
  match file with
  | none => .error (.misuse (.fileMissing path))
  | some content =>
      match utf8? content with
      | none => .error (.misuse (.fileNotUtf8 path))
      | some text =>
          match Json.readWithin levels text with
          | .ok report => ofReport report
          | .error .malformed => .error (.schema (.notJson path))
          | .error .oversizedInteger => .error (.misuse .numeralTooLong)
          | .error .halfCharacter => .error (.misuse .halfCharacter)
          | .error .nestedTooDeep => .error (.misuse .nestedTooDeep)

/-- The layout of a file, found under a path. -/
def ofFile
    (path : String)
    (file : File) :
    Except Fault Layout :=
  ofFileWithin Json.usualLevels path file

end EvmStorage.Layout
