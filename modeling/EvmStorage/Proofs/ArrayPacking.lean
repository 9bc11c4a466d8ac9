import EvmStorage.Proofs.ValueTree

namespace EvmStorage

/-!
# Packing of arrays

Elements of an array are put one behind the other: into the slot of the last
one as long as there is room for a whole element, and else at the start of the
first slot that is free.  This rule, which only looks at the element before,
gives the places that are found from the index alone, and the number of slots
that is found from the length alone counts the slots up to the last element.
-/

/--
The place behind an element: in the same slot if one more element of the size
fits there, else at the start of the first slot behind those of the element.
-/
def ElementPlace.next
    (size : Int)
    (place : ElementPlace) :
    ElementPlace :=
  if place.offset + size + size ≤ slotSize then
    { place with offset := place.offset + size }
  else
    {
      slot := place.slot + exactSpan size
      offset := 0
    }

/--
Whether the elements of an array lie densely at their places, and it takes a
number of slots.
-/
structure DensePacking
    (size : Int)
    (length : Nat)
    (place : Nat → ElementPlace)
    (span : Int) :
    Prop where
  first : place 0 = { slot := 0, offset := 0 }
  next : ∀ index, place (index + 1) = (place index).next size
  apart :
    ∀ earlier later,
      earlier < later →
      (place earlier).firstByte + size ≤ (place later).firstByte
  inOneSlot :
    size ≤ slotSize →
    ∀ index, 0 ≤ (place index).offset ∧ (place index).offset + size ≤ slotSize
  ownSlots :
    slotSize < size →
    ∀ index,
      (place index).offset = 0 ∧
        (place (index + 1)).slot = (place index).slot + exactSpan size
  within :
    ∀ index,
      index < length →
      0 ≤ (place index).firstByte ∧
        (place index).firstByte + size ≤ slotSize * span
  empty : length = 0 → span = 0
  lastSlot :
    0 < length →
    (place (length - 1)).firstByte < slotSize * span ∧
      slotSize * (span - 1) < (place (length - 1)).firstByte + size
  withoutGaps :
    size ∣ slotSize →
    ∀ index : Nat,
      place index =
        { slot := index * size / slotSize, offset := index * size % slotSize }

section Places

variable {index size : Int}

/--
The next index is in the same slot and one place further, or the first one in
the next slot.
-/
private theorem ediv_emod_succ
    {perSlot : Int}
    (positive : 0 < perSlot) :
    (index % perSlot + 1 < perSlot ∧
        (index + 1) / perSlot = index / perSlot ∧
        (index + 1) % perSlot = index % perSlot + 1) ∨
      (index % perSlot + 1 = perSlot ∧
        (index + 1) / perSlot = index / perSlot + 1 ∧
        (index + 1) % perSlot = 0) := by
  have restNonneg := Int.emod_nonneg index positive.ne'
  have restBelow : index % perSlot + 1 ≤ perSlot :=
    Int.emod_lt_of_pos index positive
  have isNext :
      index + 1 = perSlot * (index / perSlot) + (index % perSlot + 1) := by
    rw [← add_assoc, Int.mul_ediv_add_emod]
  rcases restBelow.lt_or_eq with oneMore | isLast
  · refine .inl ⟨oneMore, ?_, ?_⟩
    · rw [isNext, Int.mul_add_ediv_left _ _ positive.ne',
        Int.ediv_eq_zero_of_lt (by omega) oneMore, add_zero]
    · rw [isNext, Int.mul_add_emod_self_left,
        Int.emod_eq_of_lt (by omega) oneMore]
  · have isWhole : index + 1 = perSlot * (index / perSlot + 1) := by
      rw [isNext, isLast, mul_add, mul_one]
    refine .inr ⟨isLast, ?_, ?_⟩
    · rw [isWhole, Int.mul_ediv_cancel_left _ positive.ne']
    · rw [isWhole, Int.mul_emod_right]

/-- The place of the next element follows from the place of an element. -/
theorem exactPlace_succ
    (positive : 0 < size) :
    exactPlace (index + 1) size = (exactPlace index size).next size := by
  by_cases small : size ≤ slotSize
  · have isSpan : exactSpan size = 1 := by
      simp only [exactSpan, slotSize] at small ⊢
      omega
    have perSlotPos : 0 < (slotSize : Int) / size :=
      Int.le_ediv_of_mul_le positive (by omega)
    have behindNext (rest : Int) :
        rest * size + size + size = (rest + 2) * size := by
      ring
    simp only [exactPlace, ElementPlace.next, if_pos small, isSpan, behindNext]
    rcases @ediv_emod_succ index _ perSlotPos with
      ⟨oneMore, sameSlot, nextRest⟩ | ⟨isLast, nextSlot, noRest⟩
    · have fits : (index % (slotSize / size) + 2) * size ≤ slotSize :=
        (Int.mul_le_mul_of_nonneg_right (by omega) positive.le).trans
          (Int.ediv_mul_le _ positive.ne')
      rw [if_pos fits, sameSlot, nextRest, add_mul, one_mul]
    · have tooLong :
          (slotSize : Int) < (index % (slotSize / size) + 2) * size := by
        have isFull : index % (slotSize / size) + 2 = slotSize / size + 1 := by
          omega
        rw [isFull]
        exact Int.lt_ediv_add_one_mul_self _ positive
      rw [if_neg (not_le.mpr tooLong), nextSlot, noRest, zero_mul]
  · have tooLong : ¬ 0 + size + size ≤ slotSize := by
      omega
    simp only [exactPlace, ElementPlace.next, if_neg small, if_neg tooLong,
      add_mul, one_mul]

/-- Elements that fill a slot without a rest lie one behind the other. -/
theorem exactPlace_of_dvd
    (positive : 0 < size)
    (fills : size ∣ slotSize) :
    exactPlace index size =
      { slot := index * size / slotSize
        offset := index * size % slotSize } := by
  obtain ⟨perSlot, isSlot⟩ := fills
  have small : size ≤ slotSize :=
    Int.le_of_dvd (by decide) ⟨perSlot, isSlot⟩
  have isPerSlot : (slotSize : Int) / size = perSlot := by
    rw [isSlot, Int.mul_ediv_cancel_left _ positive.ne']
  rw [exactPlace, if_pos small, isPerSlot, isSlot, mul_comm index size,
    Int.mul_ediv_mul_of_pos _ _ positive, Int.mul_emod_mul_of_pos _ _ positive,
    mul_comm size]

/-- The last slot of an array holds a part of its last element. -/
theorem exactPlace_lastSlot
    {length : Int}
    (positive : 0 < size)
    (notEmpty : 0 < length) :
    (exactPlace (length - 1) size).firstByte <
      slotSize * exactArraySpan length size ∧
      slotSize * (exactArraySpan length size - 1) <
        (exactPlace (length - 1) size).firstByte + size := by
  have offset := @exactPlace_offset_nonneg (length - 1) size positive
  have inside :=
    exactPlace_firstByte_add_le positive (by omega : 0 ≤ length - 1)
      (by omega : length - 1 < length)
  have isSpan :
      exactArraySpan length size =
        (exactPlace (length - 1) size).slot + exactSpan size :=
    if_neg (by omega)
  have spanned : 32 * exactSpan size < size + 32 := by
    simp only [exactSpan]
    omega
  simp only [ElementPlace.firstByte, slotSize] at inside ⊢
  omega

end Places

/--
The elements of an array are packed densely.

Each of them has a place, the array has a number of slots, and the two are
those of the rule that puts every element right behind the one before it.
-/
theorem densePacking_of_elementPlace
    {size : Int}
    (positive : 0 < size)
    (bounded : size ≤ greatestExactSize)
    (length : Nat) :
    ∃ place span,
      (∀ index : Nat, elementPlace index size = .ok (place index)) ∧
        arraySpan length size = .ok span ∧
        DensePacking size length place span := by
  have nonneg (index : Nat) : (0 : Int) ≤ index :=
    Int.natCast_nonneg index
  refine ⟨fun index => exactPlace index size, exactArraySpan length size,
    fun index => elementPlace_eq (nonneg index) positive bounded,
    arraySpan_eq (fun _ => positive) bounded, ?_⟩
  exact
    { first := by simp [exactPlace]
      next := fun index => by
        rw [Nat.cast_succ]
        exact exactPlace_succ positive
      apart := fun earlier later order => by
        simpa only [ElementPlace.firstByte] using
          exactPlace_end_le positive (Int.ofNat_lt.mpr order)
      inOneSlot := fun small index =>
        ⟨exactPlace_offset_nonneg positive,
          exactPlace_offset_add_le positive small⟩
      ownSlots := fun large index => by
        simp only [exactPlace, if_neg (not_le.mpr large), Nat.cast_succ,
          add_mul, one_mul, and_self]
      within := fun index inside =>
        ⟨exactPlace_firstByte_nonneg positive (nonneg index),
          exactPlace_firstByte_add_le positive (nonneg index)
            (Int.ofNat_lt.mpr inside)⟩
      empty := by
        rintro rfl
        rfl
      lastSlot := fun notEmpty => by
        rw [Nat.cast_pred notEmpty]
        exact exactPlace_lastSlot positive (Int.natCast_pos.mpr notEmpty)
      withoutGaps := fun fills index => exactPlace_of_dvd positive fills }

/--
Five elements of twelve bytes take three slots, of which the last one holds one
element.
-/
theorem densePacking_of_twelve :
    ∃ place span,
      place 3 = { slot := 1, offset := 12 } ∧
        place 4 = { slot := 2, offset := 0 } ∧
        span = 3 ∧
        DensePacking 12 5 place span := by
  obtain ⟨place, span, arePlaces, isSpan, packing⟩ :=
    @densePacking_of_elementPlace 12 (by decide) (by decide) 5
  have third : elementPlace 3 12 = .ok { slot := 1, offset := 12 } :=
    rfl
  have fourth : elementPlace 4 12 = .ok { slot := 2, offset := 0 } :=
    rfl
  have three : arraySpan 5 12 = .ok 3 :=
    Outcome.eq_ok_of_toOption (by decide +kernel)
  exact ⟨place, span, Except.ok.inj ((arePlaces 3).symm.trans third),
    Except.ok.inj ((arePlaces 4).symm.trans fourth),
      Except.ok.inj (isSpan.symm.trans three),
    packing⟩

end EvmStorage
