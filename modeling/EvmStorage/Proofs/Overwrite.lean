import EvmStorage.Proofs.Memory
import Mathlib.Data.List.GetD
import Mathlib.Tactic.Linarith

namespace EvmStorage

/-!
# Writing into a memory

The bytes behind a slot are counted from its lowest byte on, so that the bytes
of a value that shares a slot with others have addresses next to each other.
Writing replaces bytes at some addresses and leaves all others as they are;
what was written is read back if nothing else is written over it.
-/

/-- Bytes that are stored at an address, counted in bytes from some slot on. -/
structure Leaf where
  start : Int
  content : Bytes

namespace Leaf

/-- Whether a byte is one of those that are stored. -/
def Covers
    (leaf : Leaf)
    (address : Int) :
    Prop :=
  leaf.start ≤ address ∧ address < leaf.start + leaf.content.length

instance (leaf : Leaf) (address : Int) : Decidable (leaf.Covers address) :=
  inferInstanceAs (Decidable (_ ∧ _))

/-- The byte at an address; the last byte is the lowest. -/
def byteAt
    (leaf : Leaf)
    (address : Int) :
    UInt8 :=
  leaf.content.reverse.getD (address - leaf.start).toNat 0

/-- Whether no byte is one of both. -/
def Apart (first second : Leaf) : Prop :=
  ∀ address, first.Covers address → ¬ second.Covers address

end Leaf

namespace Memory

variable {memory : Memory} {slot address : Int} {leaf : Leaf}
  {leaves : List Leaf}

/-- The byte at an address that is counted from the lowest byte of a slot on. -/
def byte
    (memory : Memory)
    (slot address : Int) :
    UInt8 :=
  (memory.word ((slot + address / 32) % slotModulus)).reverse.getD
    (address % 32).toNat 0

/-- The memory with some bytes replaced, at addresses counted from a slot on. -/
def write
    (memory : Memory)
    (slot : Int)
    (leaf : Leaf) :
    Memory where
  word other :=
    (List.ofFn fun place : Fin slotSize =>
      let address := 32 * ((other - slot) % slotModulus) + place
      if leaf.Covers address then
        leaf.byteAt address
      else
        (memory.word other).reverse.getD place 0).reverse
  length_word _ := by simp

/-- The memory with bytes replaced at several places, one after the other. -/
def writeAll
    (memory : Memory)
    (slot : Int)
    (leaves : List Leaf) :
    Memory :=
  leaves.foldl (fun current leaf => current.write slot leaf) memory

/--
Whether an address is that of a byte behind a slot, before all slots are
passed.
-/
def InRange (address : Int) : Prop :=
  0 ≤ address ∧ address < 32 * slotModulus

/-- Writing replaces the bytes that are written, and no other ones. -/
theorem byte_write
    (inRange : InRange address) :
    (memory.write slot leaf).byte slot address =
      if leaf.Covers address then
        leaf.byteAt address
      else
        memory.byte slot address := by
  have positive : (0 : Int) < slotModulus := by
    decide
  have sameSlot :
      ((slot + address / 32) % slotModulus - slot) % slotModulus =
        address / 32 := by
    rw [Int.emod_sub_emod, add_sub_cancel_left]
    apply Int.emod_eq_of_lt
    · exact Int.ediv_nonneg inRange.1 (by decide)
    · exact Int.ediv_lt_of_lt_mul (by decide) (by linarith [inRange.2])
  have place : (address % 32).toNat < slotSize := by
    simp only [slotSize]
    omega
  have sameAddress :
      32 * (address / 32) + ((address % 32).toNat : Int) = address := by
    omega
  simp only [byte, write, List.reverse_reverse]
  rw [List.getD_eq_getElem _ _ (by simpa using place)]
  simp only [List.getElem_ofFn, sameSlot, sameAddress]

/-- What is written elsewhere leaves a byte as it is. -/
theorem byte_writeAll_of_not_covers
    (inRange : InRange address)
    (notCovered : ∀ leaf ∈ leaves, ¬ leaf.Covers address) :
    (memory.writeAll slot leaves).byte slot address =
      memory.byte slot address := by
  induction leaves generalizing memory with
  | nil =>
      rfl
  | cons first rest inductionHypothesis =>
      obtain ⟨notFirst, notRest⟩ := List.forall_mem_cons.mp notCovered
      calc
        (memory.writeAll slot (first :: rest)).byte slot address
            = (memory.write slot first).byte slot address :=
          inductionHypothesis notRest
        _ = memory.byte slot address := by
          rw [byte_write inRange, if_neg notFirst]

/-- Whether a memory has some bytes at their addresses. -/
def Holds
    (memory : Memory)
    (slot : Int)
    (leaf : Leaf) :
    Prop :=
  ∀ address,
    leaf.Covers address → memory.byte slot address = leaf.byteAt address

/--
A memory has everything that was written into it at places that are apart.
-/
theorem holds_writeAll
    (apart : leaves.Pairwise Leaf.Apart)
    (inRange :
      ∀ leaf ∈ leaves, ∀ address, leaf.Covers address → InRange address) :
    ∀ leaf ∈ leaves, (memory.writeAll slot leaves).Holds slot leaf := by
  induction leaves generalizing memory with
  | nil =>
      intro leaf isLeaf
      cases isLeaf
  | cons first rest inductionHypothesis =>
      obtain ⟨firstApart, restApart⟩ := List.pairwise_cons.mp apart
      obtain ⟨firstInRange, restInRange⟩ := List.forall_mem_cons.mp inRange
      intro leaf isLeaf
      rcases List.mem_cons.mp isLeaf with isFirst | inRest
      · subst leaf
        intro address covers
        calc
          (memory.writeAll slot (first :: rest)).byte slot address
              = (memory.write slot first).byte slot address :=
            byte_writeAll_of_not_covers (firstInRange address covers)
              fun later inRest => firstApart later inRest address covers
          _ = first.byteAt address := by
            rw [byte_write (firstInRange address covers), if_pos covers]
      · exact inductionHypothesis restApart restInRange leaf inRest

/-- Bytes that a memory has in one slot are read from the word of the slot. -/
theorem window_of_holds
    (holds : memory.Holds slot leaf)
    (notEmpty : leaf.content ≠ [])
    (inSlot : leaf.start % 32 + leaf.content.length ≤ 32) :
    Word.window (memory.word ((slot + leaf.start / 32) % slotModulus))
        (leaf.start % 32) leaf.content.length =
      .ok leaf.content := by
  set word := memory.word ((slot + leaf.start / 32) % slotModulus) with isWord
  have wholeWord : word.length = slotSize :=
    memory.length_word _
  have positive : 0 < leaf.content.length :=
    List.length_pos_of_ne_nil notEmpty
  have fits :
      ¬ (leaf.start % 32 < 0 ∨ (leaf.content.length : Int) ≤ 0 ∨
        leaf.start % 32 + leaf.content.length > slotSize) := by
    simp only [slotSize]
    omega
  rw [Word.window, if_neg (not_not.mpr wholeWord), if_neg fits]
  congr 1
  apply List.ext_getElem
  · simp only [List.length_take, List.length_drop, wholeWord, slotSize]
    omega
  · intro place inWindow inContent
    -- The bytes of a window are counted from the highest one, addresses from
    -- the lowest one.
    set address :=
      leaf.start + (leaf.content.length - 1 - place : Nat) with isAddress
    have covers : leaf.Covers address := by
      constructor <;> omega
    have sameSlot : address / 32 = leaf.start / 32 := by
      omega
    have stored : memory.byte slot address = leaf.byteAt address :=
      holds address covers
    simp only [byte, Leaf.byteAt, sameSlot] at stored
    rw [← isWord,
      List.getD_eq_getElem _ _ (by simp [wholeWord, slotSize]; omega),
      List.getD_eq_getElem _ _ (by simp; omega), List.getElem_reverse,
      List.getElem_reverse] at stored
    have inWord : word.length - 1 - (address % 32).toNat =
        ((slotSize : Int) - leaf.start % 32 - leaf.content.length).toNat +
          place := by
      simp only [wholeWord, slotSize]
      omega
    have inLeaf :
        leaf.content.length - 1 - (address - leaf.start).toNat = place := by
      omega
    simp only [inWord, inLeaf] at stored
    simpa [List.getElem_take, List.getElem_drop] using stored

end Memory

end EvmStorage
