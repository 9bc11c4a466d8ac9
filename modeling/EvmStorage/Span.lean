import EvmStorage.Fault
import EvmStorage.Word

namespace EvmStorage

/-!
# Places of array elements

Small elements share a slot, as many as fit, and never cross into the next
one; an element larger than a slot starts a slot of its own.  How many slots
a size takes is found by a division in floating point, so that a size of more
than 53 bits is rounded first.
-/

/--
The natural number of at most 53 significant bits that is nearest to a number.
-/
def roundTo53Bits (n : Nat) : Nat :=
  let unit := Nat.pow 2 (n.log2 - 52)
  Binary64.roundQuotient n unit * unit

/-- The number of slots that a size in bytes takes. -/
def slotSpan (size : Int) : Except Fault Int :=
  let rounded : Int := roundTo53Bits size.natAbs
  if Int.pow 2 1029 ≤ rounded then
    .error (.misuse (.sizeTooLarge size))
  else if 0 ≤ size then
    .ok ((rounded + 31) / 32)
  else
    .ok (-(rounded / 32))

/--
Where an element lies: its slot counted from the start of the array, and its
offset in it.
-/
structure ElementPlace where
  slot : Int
  offset : Int
  deriving DecidableEq, Repr

/-- Where the element with a given index lies. -/
def elementPlace
    (index size : Int) :
    Except Fault ElementPlace :=
  if size ≤ 0 then
    .error (.schema (.elementSizeNotPositive size))
  else if index < 0 then
    .error (.schema (.elementIndexNegative index))
  else if size ≤ slotSize then
    let perSlot := slotSize / size
    .ok {
      slot := index / perSlot
      offset := index % perSlot * size
    }
  else do
    let span ← slotSpan size
    return {
      slot := index * span
      offset := 0
    }

/-- The number of slots that an array takes. -/
def arraySpan
    (length size : Int) :
    Except Fault Int :=
  if length ≤ 0 then
    .ok 0
  else do
    let last ← elementPlace (length - 1) size
    let span ← slotSpan size
    return last.slot + span

end EvmStorage
