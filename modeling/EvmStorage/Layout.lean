import EvmStorage.Label
import EvmStorage.Value.Equality

namespace EvmStorage

/-!
# Storage layouts

A layout says which variables a contract has, where each of them starts, and
what the types are made of.  It is a table of types and a list of variables,
as a compiler reports them; nothing in it is checked beyond what reading the
report checks, so types may refer to types that are not there.
-/

/-- How the values of a type are stored. -/
inductive Encoding where
  | inplace
  | mapping
  | dynamicArray
  | bytes
  deriving DecidableEq, Repr

/-- The word that an encoding is reported with. -/
def Encoding.name : Encoding → String
  | .inplace => "inplace"
  | .mapping => "mapping"
  | .dynamicArray => "dynamic_array"
  | .bytes => "bytes"

/-- The encoding that is reported with a word. -/
def Encoding.ofName? (name : String) : Option Encoding :=
  [Encoding.inplace, .mapping, .dynamicArray, .bytes].find? fun encoding =>
    encoding.name = name

/--
A variable of a contract, or a member of a struct.

The slot of a member is counted from the first slot of its struct.
-/
structure Variable where
  label : Value
  type : Value
  slot : Int
  offset : Int
  deriving DecidableEq

/-- A type of the table. -/
structure TypeEntry where
  id : String
  label : Value
  encoding : Encoding
  size : Int
  base : Option Value
  key : Option Value
  value : Option Value
  members : Option (List Variable)
  deriving DecidableEq

namespace TypeEntry

/-- Whether a type has members. -/
def isStruct (type : TypeEntry) : Bool :=
  type.members.isSome

/-- Whether the values of a type are found by keys. -/
def isMapping (type : TypeEntry) : Bool :=
  type.encoding = .mapping

/-- Whether a type is an array whose length is stored. -/
def isDynamicArray (type : TypeEntry) : Bool :=
  type.encoding = .dynamicArray

/-- Whether a type is a byte string or text of any length. -/
def isBytes (type : TypeEntry) : Bool :=
  type.encoding = .bytes

/-- Whether a type is an array whose length is a part of its label. -/
def isFixedArray (type : TypeEntry) : Bool :=
  type.encoding = .inplace && type.base.isSome

/-- Whether the values of a type are found by indexes. -/
def isArray (type : TypeEntry) : Bool :=
  type.isFixedArray || type.isDynamicArray

/-- Whether a value of a type lies in one part of one slot. -/
def isScalar (type : TypeEntry) : Bool :=
  type.encoding = .inplace && type.base.isNone && type.members.isNone

/--
The length of an array that has it in its label, in the last pair of brackets.
-/
def fixedLength (type : TypeEntry) : Except Fault Int :=
  match type.label with
  | .text label =>
      match type.isFixedArray, Label.lastDimension? label.toList with
      | true, some (digit :: digits) => Label.numberOf (digit :: digits)
      | _, _ => .error (.schema (.notFixedArray type.id type.label))
  | label => .error (.misuse (.lengthLabelNotText label))

/-- The member of a struct with a given name. -/
def member
    (type : TypeEntry)
    (name : Value) :
    Except Fault Variable :=
  match type.members with
  | none => .error (.schema (.notStruct type.id type.label))
  | some members =>
      match members.find? fun member => member.label.equals name with
      | some member => .ok member
      | none => .error (.notFound (.member name type.id))

end TypeEntry

/-- The variables of a contract and the types they are made of. -/
structure Layout where
  stateVariables : List Variable
  types : List TypeEntry
  deriving DecidableEq

namespace Layout

/-- The type with a given identifier, if the table has it. -/
def find?
    (layout : Layout)
    (id : String) :
    Option TypeEntry :=
  layout.types.find? fun type => type.id = id

/-- The type that is referred to by the value found in a report. -/
def lookup
    (layout : Layout)
    (id : Value) :
    Except Fault TypeEntry :=
  match id with
  | .text name =>
      match layout.find? name with
      | some type => .ok type
      | none => .error (.schema (.undefinedType id))
  | id =>
      if id.isLabel then
        .error (.schema (.undefinedType id))
      else
        .error (.misuse (.typeIdNotText id))

/-- The variable with a given label; of several the last one. -/
def topLevel
    (layout : Layout)
    (label : Value) :
    Except Fault Variable :=
  if label.isLabel then
    match layout.stateVariables.reverse.find? fun entry =>
      entry.label.sameLabel label with
    | some entry => .ok entry
    | none => .error (.notFound (.variable label))
  else
    .error (.misuse (.unusableLabel label))

/-- The size in bytes of a type. -/
def sizeOf
    (layout : Layout)
    (id : Value) :
    Except Fault Int := do
  let type ← layout.lookup id
  return type.size

/-- The type of the elements of an array. -/
def elementOf
    (layout : Layout)
    (type : TypeEntry) :
    Except Fault TypeEntry :=
  layout.lookup (type.base.getD .null)

end Layout

end EvmStorage
