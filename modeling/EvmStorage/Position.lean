import EvmStorage.HashedSlot
import EvmStorage.Key.TypeName
import EvmStorage.Layout
import EvmStorage.Span

namespace EvmStorage

/-!
# Positions in storage

A position names a value of a contract by the slot and the offset at which it
starts, together with its type and the block it is read at.  One step leads
from a position to a member of a struct, to the value of a mapping under a
key, or to an element of an array; slots are counted modulo their number, and
every step keeps the address and the block.
-/

/-- Where a value is stored. -/
structure Position where
  slot : Int
  offset : Int
  type : Value
  address : String
  block : Value
  deriving DecidableEq

/-- One step into a value. -/
inductive Step where
  | field (name : Value)
  | key (key : Value)
  | index (index : Value)
  deriving DecidableEq

/-- The step of a named kind. -/
def Step.ofKind
    (kind : String)
    (argument : Value) :
    Except Fault Step :=
  if kind = "field" then
    .ok (.field argument)
  else if kind = "key" then
    .ok (.key argument)
  else if kind = "index" then
    .ok (.index argument)
  else
    .error (.misuse (.segmentKind kind))

namespace Position

/-- The member of a struct. -/
def member
    (position : Position)
    (type : TypeEntry)
    (name : Value) :
    Except Fault Position := do
  let found ← type.member name
  return {
    position with
    slot := (position.slot + found.slot) % slotModulus
    offset := found.offset
    type := found.type
  }

/-- The value of a mapping under a key. -/
def entry
    (hash : Digest)
    (position : Position)
    (type : TypeEntry)
    (key : Value) :
    Except Fault Position :=
  match type.key.getD .null with
  | .text id => do
      let slot ← mappingSlot hash key position.slot (Key.typeName id)
      return {
        position with
        slot := slot
        offset := 0
        type := type.value.getD .null
      }
  | keyType => .error (.misuse (.keyTypeNotText keyType))

/-- An index given as an integer or as text. -/
def readIndex (index : Value) : Except Fault Int :=
  let notInteger : Except Fault Int :=
    .error (.notFound (.indexNotInteger index))
  let found : Except Fault Int :=
    match index with
    | .int i => .ok i
    | .text s =>
        match Numeral.ofText? s with
        | some i => .ok i
        | none => notInteger
    | _ => notInteger
  found.bind fun i =>
    if i < 0 then
      .error (.notFound (.indexNegative i))
    else
      .ok i

/--
The slot at which the elements of an array start, for an index that the array
may have.
-/
def elementsStart
    (hash : Digest)
    (position : Position)
    (type : TypeEntry)
    (index : Int) :
    Except Fault Int :=
  if type.isDynamicArray then
    dataSlot hash position.slot
  else do
    let length ← type.fixedLength
    if length ≤ index then
      .error (.notFound (.indexOutOfRange index type.label))
    else
      return position.slot

/-- The element of an array. -/
def element
    (hash : Digest)
    (layout : Layout)
    (position : Position)
    (type : TypeEntry)
    (index : Value) :
    Except Fault Position := do
  let index ← readIndex index
  let base := type.base.getD .null
  let size ← layout.sizeOf base
  let start ← elementsStart hash position type index
  let place ← elementPlace index size
  return {
    position with
    slot := (start + place.slot) % slotModulus
    offset := place.offset
    type := base
  }

/-- The position that one step leads to from a value of a given type. -/
def stepWithin
    (hash : Digest)
    (layout : Layout)
    (position : Position)
    (type : TypeEntry) :
    Step →
    Except Fault Position
  | .field name =>
      if type.isStruct then
        position.member type name
      else
        .error (.notFound (.memberOfNonStruct name type.label))
  | .key key =>
      if type.isMapping then
        position.entry hash type key
      else
        .error (.notFound (.keyOfNonMapping key type.label))
  | .index index =>
      if type.isArray then
        position.element hash layout type index
      else
        .error (.notFound (.indexOfNonArray type.label))

/-- The position that one step leads to. -/
def step
    (hash : Digest)
    (layout : Layout)
    (position : Position)
    (step : Step) :
    Except Fault Position := do
  let type ← layout.lookup position.type
  position.stepWithin hash layout type step

/--
The position that a step of a named kind leads to; the type is looked up before
the kind.
-/
def stepOfKind
    (hash : Digest)
    (layout : Layout)
    (position : Position)
    (kind : String)
    (argument : Value) :
    Except Fault Position := do
  let type ← layout.lookup position.type
  let step ← Step.ofKind kind argument
  position.stepWithin hash layout type step

end Position

end EvmStorage
