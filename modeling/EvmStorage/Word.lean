import EvmStorage.Fault

namespace EvmStorage

/-!
# Storage words

A slot holds a word of 32 bytes.  Values smaller than a word share it: the
first one has the lowest bytes, at the end of the word.
-/

/-- The number of bytes of a slot. -/
def slotSize : Nat :=
  32

/-- The number of slots. -/
def slotModulus : Int :=
  Int.pow 2 256

/-- Whether a slot number is one of the slots that exist. -/
def inSlotSpace (slot : Int) : Bool :=
  0 ≤ slot && slot < slotModulus

namespace Word

/-- The word of a number below the number of slots. -/
def ofNat (n : Nat) : Bytes :=
  Bytes.ofNat slotSize n

/-- The word that writes a slot number. -/
def ofSlot (slot : Int) : Except Fault Bytes :=
  if inSlotSpace slot then
    .ok (ofNat slot.toNat)
  else
    .error (.schema (.slotOutsideSpace slot))

/-- A word with zeros in front of bytes that are too few. -/
def ofBytes (content : Bytes) : Except Fault Bytes :=
  if content.length > slotSize then
    .error (.read (.valueTooLong content.length))
  else
    .ok (content.leftpad slotSize 0)

/--
The word that a provider meant by a raw value.

A number, a hex text with or without its mark, and a byte string are accepted
as long as they fit; zeros may be missing in front.
-/
def ofRaw : Value → Except Fault Bytes
  | .int n =>
      if inSlotSpace n then
        .ok (ofNat n.toNat)
      else
        .error (.read (.valueOutOfRange n))
  | .text s =>
      match Bytes.ofHex? s with
      | some content => ofBytes content
      | none => .error (.read (.valueNotHex s))
  | .bytes content => ofBytes content
  | raw => .error (.read (.valueOfKind raw.kindName))

/--
The bytes of one variable, at a distance of `offset` bytes from the end of its
word.
-/
def window
    (word : Bytes)
    (offset size : Int) :
    Except Fault Bytes :=
  if word.length ≠ slotSize then
    .error (.read (.wordOfLength word.length))
  else if offset < 0 ∨ size ≤ 0 ∨ offset + size > slotSize then
    .error (.schema (.windowOutsideSlot size offset))
  else
    .ok ((word.drop (slotSize - offset - size).toNat).take size.toNat)

end Word

end EvmStorage
