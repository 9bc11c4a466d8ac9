import EvmStorage.Address
import EvmStorage.Layout.TypeLabel
import EvmStorage.Span
import EvmStorage.TwosComplement

namespace EvmStorage

/-!
# Decoding stored values

A value of a type is decoded from the words of the slots it takes.  Parts of
it whose values lie in slots of their own, such as mappings and texts, are
left out of structs and refused as elements of arrays.

Types are decoded part by part.  A chain of parts that is longer than the
table of types comes back to a type it has passed, and is refused.
-/

/--
The part of a list between two positions; positions below zero count from the
end.
-/
def between
    (items : List α)
    (start stop : Int) :
    List α :=
  let position (p : Int) : Nat :=
    (if p < 0 then p + items.length else p).toNat
  (items.take (position stop)).drop (position start)

/--
The number of parts in a chain of parts that does not come back to a type.
-/
def Layout.depth (layout : Layout) : Nat :=
  layout.types.length + 2

namespace Decode

variable (hash : Digest)

/--
The value of a type that lies in one part of one slot, from the bytes of that
part.
-/
def scalar
    (data : Bytes)
    (type : TypeEntry) :
    Except Fault Value := do
  if !type.isScalar then
    .error (.schema (.notScalar type.id type.label))
  else
    let label ← type.labelText
    if label = "bool" then
      return .bool (data.any (· != 0))
    else if label = "address" ∨ label = "address payable" ∨
      label.startsWith "contract " then
      if data.length = Address.size then
        return .text (Address.checksum hash data)
      else
        .error (.misuse .malformedAddress)
    else if label.startsWith "enum " then
      return .int (Bytes.toNat data)
    else
      let parts ← type.typeLabel none
      match parts.kind, parts.isUnsigned with
      | .bytes, _ => return .text (Bytes.toMarkedHex data)
      | .int, true => return .int (Bytes.toNat data)
      | .int, false =>
          let n ← TwosComplement.decode (Bytes.toNat data) parts.bits
          return .int n

/--
Whether a type, or what its elements are made of, has its values in slots of
their own.
-/
def storedElsewhereWithin
    (layout : Layout) :
    Nat →
    TypeEntry →
    Except Fault Bool
  | 0, type => .error (.misuse (.typeNestedInItself type.id))
  | depth + 1, type =>
      if type.isMapping || type.isDynamicArray || type.isBytes then
        .ok true
      else if type.isFixedArray then do
        let element ← layout.elementOf type
        storedElsewhereWithin layout depth element
      else
        .ok false

/-- Whether the values of a type lie in slots of their own. -/
def storedElsewhere
    (layout : Layout)
    (type : TypeEntry) :
    Except Fault Bool :=
  storedElsewhereWithin layout layout.depth type

/--
The element type of an array whose elements lie in the slots of the array.
-/
def elementInPlace
    (layout : Layout)
    (type : TypeEntry) :
    Except Fault TypeEntry := do
  let element ← layout.elementOf type
  let elsewhere ← storedElsewhere layout element
  if elsewhere then
    .error (.unsupported (.elementsElsewhere type.label element.label))
  else
    return element

/--
How the parts of a value are decoded: from words, an offset in the first, and a
type.
-/
abbrev PartDecoder :=
  List Bytes → Int → TypeEntry → Except Fault Value

/-- The element with a given index, from the words of an array. -/
def elementWith
    (part : PartDecoder)
    (words : List Bytes)
    (element : TypeEntry)
    (span : Int)
    (index : Nat) :
    Except Fault Value := do
  let place ← elementPlace index element.size
  part (between words place.slot (place.slot + span)) place.offset element

/--
The elements of an array, from its words; without a length, as many as its
label says.
-/
def sequenceWith
    (part : PartDecoder)
    (layout : Layout)
    (words : List Bytes)
    (type : TypeEntry)
    (length : Option Int) :
    Except Fault (List Value) := do
  if !type.isArray then
    .error (.schema (.notArray type.id type.label))
  else
    let element ← elementInPlace layout type
    let length ← match length with
      | some length => .ok length
      | none => type.fixedLength
    let span ← slotSpan element.size
    let needed ← arraySpan length element.size
    if words.length < needed then
      .error (.schema (.tooFewSlots type.label length needed words.length))
    else
      (List.range length.toNat).mapM (elementWith part words element span)

/-- A decoded struct with one more member, unless the member lies elsewhere. -/
def memberWith
    (part : PartDecoder)
    (layout : Layout)
    (words : List Bytes)
    (type : TypeEntry)
    (decoded : List (Value × Value))
    (member : Variable) :
    Except Fault (List (Value × Value)) := do
  let memberType ← layout.lookup member.type
  let elsewhere ← storedElsewhere layout memberType
  if elsewhere then
    return decoded
  else
    let span ← slotSpan memberType.size
    let own := between words member.slot (member.slot + span)
    if own.length < span then
      .error (.schema (.memberOutsideStruct member.label type.label))
    else
      let value ← part own member.offset memberType
      if member.label.isLabel then
        return Value.setMember member.label value decoded
      else
        .error (.misuse (.unusableLabel member.label))

/-- The members of a struct that lie in its slots, from its words. -/
def structWith
    (part : PartDecoder)
    (layout : Layout)
    (words : List Bytes)
    (type : TypeEntry) :
    Except Fault (List (Value × Value)) :=
  match type.members with
  | none => .error (.schema (.notStruct type.id type.label))
  | some members => members.foldlM (memberWith part layout words type) []

/--
A value that lies in given words from an offset in the first, down to a depth
of parts.
-/
def valueWithin
    (layout : Layout) :
    Nat →
    PartDecoder
  | 0, _, _, type => .error (.misuse (.typeNestedInItself type.id))
  | depth + 1, words, offset, type =>
      if type.isScalar then
        match words with
        | [] => .error (.misuse .noWords)
        | word :: _ => do
            let data ← Word.window word offset type.size
            scalar hash data type
      else if type.isStruct then do
        let members ← structWith (valueWithin layout depth) layout words type
        return .struct members
      else if type.isFixedArray then do
        let items ← sequenceWith
          (valueWithin layout depth) layout words type none
        return .list items
      else
        .error (.unsupported (.storedElsewhere type.label))

/-- A value that lies in given words, from an offset in the first of them. -/
def value
    (layout : Layout)
    (words : List Bytes)
    (offset : Int)
    (type : TypeEntry) :
    Except Fault Value :=
  valueWithin hash layout layout.depth words offset type

/-- The elements of an array, from its words. -/
def sequence
    (layout : Layout)
    (words : List Bytes)
    (type : TypeEntry)
    (length : Option Int) :
    Except Fault (List Value) :=
  sequenceWith (valueWithin hash layout layout.depth) layout words type length

/-- The members of a struct that lie in its slots, from its words. -/
def struct
    (layout : Layout)
    (words : List Bytes)
    (type : TypeEntry) :
    Except Fault (List (Value × Value)) :=
  structWith (valueWithin hash layout layout.depth) layout words type

/--
The length of a byte string, and whether its bytes lie in slots of their own.
-/
structure BytesHeader where
  length : Nat
  isLong : Bool
  deriving DecidableEq, Repr

/--
What the word of a byte string says.

An odd number announces bytes in slots of their own; an even one ends in the
doubled length of the bytes in front of it, of which there are at most 31.
-/
def bytesHeader (word : Bytes) : Except Fault BytesHeader :=
  let n := Bytes.toNat word
  if n % 2 = 1 then
    .ok { length := n / 2, isLong := true }
  else
    match word.getLast? with
    | none => .error (.misuse .emptyWord)
    | some last =>
        let length := last.toNat / 2
        if length < slotSize then
          .ok { length, isLong := false }
        else
          .error (.schema (.shortLengthTooLong length word))

/--
The text of a byte string: decoded if it is a text in UTF-8, else its hex
digits.
-/
def bytesText
    (data : Bytes)
    (type : TypeEntry) :
    Except Fault String := do
  if !type.isBytes then
    .error (.schema (.notBytes type.id type.label))
  else
    let label ← type.labelText
    if label.startsWith "string" then
      return (String.fromUTF8? (ByteArray.mk data.toArray)).getD
        (Bytes.toMarkedHex data)
    else
      return Bytes.toMarkedHex data

end Decode

end EvmStorage
