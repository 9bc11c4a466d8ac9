import EvmStorage.Proofs.Outcome
import EvmStorage.Span
import Mathlib.Tactic.Linarith
import Mathlib.Tactic.NormNum
import Mathlib.Tactic.Ring

namespace EvmStorage

/-!
# Exact places of array elements

Up to 53 bits a size is not rounded, so spans and places are those of integer
division.  They are restated here without the faults, and with the bounds that
the values of arrays and structs rest on.
-/

/-- The greatest size whose span is found without rounding. -/
def greatestExactSize : Int :=
  2 ^ 53

/--
The least size that has no span: it lies halfway to the number at which spans
end.
-/
def spanBound : Nat :=
  2 ^ 1029 - 2 ^ 975

/-- The number of slots that a size takes, by exact division. -/
def exactSpan (size : Int) : Int :=
  (size + 31) / 32

/-- Where the element with a given index lies, by exact division. -/
def exactPlace (index size : Int) : ElementPlace :=
  if size ≤ slotSize then
    {
      slot := index / (slotSize / size)
      offset := index % (slotSize / size) * size
    }
  else
    {
      slot := index * exactSpan size
      offset := 0
    }

/-- The number of slots that an array takes, by exact division. -/
def exactArraySpan (length size : Int) : Int :=
  if length ≤ 0 then
    0
  else
    (exactPlace (length - 1) size).slot + exactSpan size

/-- Numbers of at most 53 bits are kept by rounding. -/
theorem roundTo53Bits_eq
    {n : Nat}
    (bounded : n ≤ 2 ^ 53) :
    roundTo53Bits n = n := by
  rcases Nat.lt_or_eq_of_le bounded with below | top
  · have fits : n.log2 - 52 = 0 := by
      rcases Nat.eq_zero_or_pos n with rfl | positive
      · decide
      · have : n.log2 < 53 :=
          (Nat.log2_lt positive.ne').mpr below
        omega
    simp [roundTo53Bits, fits, Binary64.roundQuotient, Nat.mod_one]
  · subst top
    decide

/-- The span of a size of at most 53 bits is found by exact division. -/
theorem slotSpan_eq
    {size : Int}
    (nonneg : 0 ≤ size)
    (bounded : size ≤ greatestExactSize) :
    slotSpan size = .ok (exactSpan size) := by
  have kept : (roundTo53Bits size.natAbs : Int) = size := by
    rw [roundTo53Bits_eq]
    · exact Int.natAbs_of_nonneg nonneg
    · simp only [greatestExactSize] at bounded
      omega
  have small : ¬ (2 : Int) ^ 1029 ≤ size := by
    have : (2 : Int) ^ 53 < 2 ^ 1029 :=
      pow_lt_pow_right₀ (by decide) (by decide)
    exact not_le_of_gt (lt_of_le_of_lt bounded this)
  unfold slotSpan
  rw [kept, Int.pow_eq, if_neg small, if_pos nonneg]
  rfl

/-- Rounding never doubles a number. -/
theorem roundTo53Bits_le (n : Nat) :
    roundTo53Bits n ≤ 2 * n := by
  rcases Nat.eq_zero_or_pos n with rfl | positive
  · decide
  · have unit_le : 2 ^ (n.log2 - 52) ≤ n :=
      calc
        2 ^ (n.log2 - 52) ≤ 2 ^ n.log2 :=
          Nat.pow_le_pow_right (by decide) (Nat.sub_le _ _)
        _ ≤ n := Nat.log2_self_le positive.ne'
    have rounded :
        Binary64.roundQuotient n (2 ^ (n.log2 - 52)) ≤
          n / 2 ^ (n.log2 - 52) + 1 := by
      simp only [Binary64.roundQuotient]
      split <;> omega
    calc
      roundTo53Bits n
          ≤ (n / 2 ^ (n.log2 - 52) + 1) * 2 ^ (n.log2 - 52) :=
        Nat.mul_le_mul_right _ rounded
      _ = n / 2 ^ (n.log2 - 52) * 2 ^ (n.log2 - 52) + 2 ^ (n.log2 - 52) := by
        ring
      _ ≤ n + n := Nat.add_le_add (Nat.div_mul_le_self _ _) unit_le
      _ = 2 * n := by ring

/-- Rounding leaves no positive number without a bit. -/
theorem roundTo53Bits_pos
    {n : Nat}
    (positive : 0 < n) :
    0 < roundTo53Bits n := by
  have unitPos : 0 < 2 ^ (n.log2 - 52) :=
    Nat.two_pow_pos _
  have unit_le : 2 ^ (n.log2 - 52) ≤ n :=
    (Nat.pow_le_pow_right (by decide) (Nat.sub_le _ _)).trans
      (Nat.log2_self_le positive.ne')
  have notZero : 0 < n / 2 ^ (n.log2 - 52) :=
    Nat.div_pos unit_le unitPos
  refine Nat.mul_pos ?_ unitPos
  simp only [Binary64.roundQuotient, Nat.pow_eq]
  split <;> omega

/--
A quotient that is nearer to a smaller number than to a bound is rounded below
the bound.
-/
theorem roundQuotient_lt
    {numerator denominator bound : Nat}
    (nearer : 2 * numerator + denominator < 2 * (bound * denominator)) :
    Binary64.roundQuotient numerator denominator < bound := by
  have whole := Nat.div_add_mod numerator denominator
  have below {quotient : Nat}
    (less : denominator * quotient < bound * denominator) :
      quotient < bound := by
    rw [mul_comm] at less
    exact Nat.lt_of_mul_lt_mul_right less
  simp only [Binary64.roundQuotient]
  split
  · apply below
    rw [mul_add, mul_one]
    omega
  · apply below
    omega

/--
A number that is nearer to a smaller one than to a power of two is rounded
below the power.
-/
theorem roundTo53Bits_lt
    {n exponent : Nat}
    (nearer : 2 * n + 2 ^ exponent < 2 * 2 ^ (53 + exponent)) :
    roundTo53Bits n < 2 ^ (53 + exponent) := by
  have doubled : 2 ^ (53 + exponent) = 2 ^ (52 + exponent) * 2 := by
    rw [← pow_succ, Nat.add_right_comm]
  by_cases small : n < 2 ^ (52 + exponent)
  · have := roundTo53Bits_le n
    omega
  · have notZero : n ≠ 0 := by
      rintro rfl
      exact small (Nat.two_pow_pos _)
    have unitPos := Nat.two_pow_pos exponent
    have isTop : n.log2 = 52 + exponent :=
      (Nat.log2_eq_iff notZero).mpr ⟨not_lt.mp small, by rw [pow_succ]; omega⟩
    simp only [roundTo53Bits, isTop, Nat.add_sub_cancel_left, Nat.pow_eq]
    rw [pow_add] at nearer ⊢
    exact Nat.mul_lt_mul_of_pos_right (roundQuotient_lt nearer)
      (Nat.two_pow_pos _)

/--
A size below the bound has a span, and a positive one takes at least one slot.
-/
theorem exists_slotSpan_of_natAbs_lt
    {size : Int}
    (bounded : size.natAbs < spanBound) :
    ∃ span, slotSpan size = .ok span ∧ (0 < size → 0 < span) := by
  have rounded : roundTo53Bits size.natAbs < 2 ^ (53 + (975 + 1)) := by
    apply roundTo53Bits_lt
    rw [spanBound, Nat.lt_sub_iff_add_lt] at bounded
    rw [pow_succ' 2 975]
    omega
  have small : ¬ (2 : Int) ^ 1029 ≤ roundTo53Bits size.natAbs := by
    have cast := Int.ofNat_lt.mpr rounded
    rw [Nat.cast_pow] at cast
    exact not_le.mpr cast
  unfold slotSpan
  rw [Int.pow_eq, if_neg small]
  by_cases nonneg : 0 ≤ size
  · refine ⟨_, if_pos nonneg, fun positive => ?_⟩
    have := @roundTo53Bits_pos size.natAbs (by omega)
    omega
  · exact ⟨_, if_neg nonneg, fun positive => absurd positive.le nonneg⟩

-- The bound itself is rounded up, and has no span.
example : (slotSpan spanBound).toOption = none := by
  decide +kernel

/-- A size of up to 256 bits has a span. -/
theorem exists_slotSpan
    {size : Nat}
    (bounded : size < 2 ^ 256) :
    ∃ span, slotSpan size = .ok span := by
  have below : 2 ^ 256 < spanBound := by
    decide +kernel
  obtain ⟨span, isSpan, _⟩ :=
    @exists_slotSpan_of_natAbs_lt size (bounded.trans below)
  exact ⟨span, isSpan⟩

/-- A size that is not negative takes no negative number of slots. -/
theorem exactSpan_nonneg
    {size : Int}
    (nonneg : 0 ≤ size) :
    0 ≤ exactSpan size := by
  simp only [exactSpan]
  omega

/-- A positive size takes at least one slot. -/
theorem exactSpan_pos
    {size : Int}
    (positive : 0 < size) :
    0 < exactSpan size := by
  simp only [exactSpan]
  omega

/-- A slot holds at least one element of up to its own size. -/
private theorem perSlot_pos
    {size : Int}
    (positive : 0 < size)
    (small : size ≤ slotSize) :
    0 < (slotSize : Int) / size :=
  Int.le_ediv_of_mul_le positive (by omega)

/-- The elements that a slot holds fit into it. -/
private theorem perSlot_mul_le
    {size : Int}
    (positive : 0 < size) :
    (slotSize : Int) / size * size ≤ slotSize :=
  Int.ediv_mul_le _ positive.ne'

/-- Places of elements are found by exact division. -/
theorem elementPlace_eq
    {index size : Int}
    (nonneg : 0 ≤ index)
    (positive : 0 < size)
    (bounded : size ≤ greatestExactSize) :
    elementPlace index size = .ok (exactPlace index size) := by
  have notZero : ¬ size ≤ 0 := not_le_of_gt positive
  have notBelow : ¬ index < 0 := not_lt_of_ge nonneg
  by_cases small : size ≤ slotSize
  · simp only [elementPlace, exactPlace, if_neg notZero, if_neg notBelow,
      if_pos small]
  · simp only [elementPlace, exactPlace, if_neg notZero, if_neg notBelow,
      if_neg small, slotSpan_eq positive.le bounded]
    rfl

/-- Offsets of elements are found by exact division, whatever their size is. -/
theorem offset_of_elementPlace
    {index size : Int}
    {place : ElementPlace}
    (isPlace : elementPlace index size = .ok place) :
    0 < size ∧ place.offset = (exactPlace index size).offset := by
  unfold elementPlace at isPlace
  split at isPlace
  · cases isPlace
  · next positive =>
      refine ⟨not_le.mp positive, ?_⟩
      split at isPlace
      · cases isPlace
      · split at isPlace
        · next small =>
            cases isPlace
            simp only [exactPlace, if_pos small]
        · next large =>
            simp only [Outcome.bind_eq_ok_iff, Outcome.pure_eq_ok,
              Except.ok.injEq] at isPlace
            obtain ⟨_, _, rfl⟩ := isPlace
            simp only [exactPlace, if_neg large]

/-- Elements behind others lie at no lower slots. -/
theorem slot_le_of_elementPlace
    {first last size span : Int}
    {place lastPlace : ElementPlace}
    (isSpan : slotSpan size = .ok span)
    (spanNonneg : 0 ≤ span)
    (isPlace : elementPlace first size = .ok place)
    (isLast : elementPlace last size = .ok lastPlace)
    (inOrder : first ≤ last) :
    0 ≤ place.slot ∧ place.slot ≤ lastPlace.slot := by
  have positive := (offset_of_elementPlace isPlace).1
  have notZero : ¬ size ≤ 0 := not_le_of_gt positive
  unfold elementPlace at isPlace isLast
  rw [if_neg notZero] at isPlace isLast
  split at isPlace
  · cases isPlace
  next nonneg =>
  have firstNonneg : 0 ≤ first := not_lt.mp nonneg
  rw [if_neg (not_lt.mpr (firstNonneg.trans inOrder))] at isLast
  split at isPlace
  · next small =>
      rw [if_pos small] at isLast
      cases isPlace
      cases isLast
      have perSlot := perSlot_pos positive small
      exact ⟨Int.ediv_nonneg firstNonneg perSlot.le,
        Int.ediv_le_ediv perSlot inOrder⟩
  · next large =>
      rw [if_neg large, isSpan] at isLast
      rw [isSpan] at isPlace
      cases isPlace
      cases isLast
      exact ⟨Int.mul_nonneg firstNonneg spanNonneg,
        Int.mul_le_mul_of_nonneg_right inOrder spanNonneg⟩

/-- Spans of arrays are found by exact division. -/
theorem arraySpan_eq
    {length size : Int}
    (sized : 0 < length → 0 < size)
    (bounded : size ≤ greatestExactSize) :
    arraySpan length size = .ok (exactArraySpan length size) := by
  by_cases empty : length ≤ 0
  · simp only [arraySpan, exactArraySpan, if_pos empty]
  · have positive := sized (by omega)
    simp only [arraySpan, exactArraySpan, if_neg empty,
      elementPlace_eq (by omega : 0 ≤ length - 1) positive bounded,
      slotSpan_eq positive.le bounded]
    rfl

/--
An array takes slots only if its elements have a size, or if there are none.
-/
theorem size_pos_of_arraySpan
    {length size span : Int}
    (notEmpty : 0 < length)
    (isSpan : arraySpan length size = .ok span) :
    0 < size := by
  rw [arraySpan, if_neg (not_le.mpr notEmpty)] at isSpan
  obtain ⟨last, isLast, _⟩ := Outcome.bind_eq_ok_iff.mp isSpan
  exact (offset_of_elementPlace isLast).1

/--
A span that an array has is the exact one, and its elements have a size if
there are some.
-/
theorem eq_exactArraySpan
    {length size span : Int}
    (bounded : size ≤ greatestExactSize)
    (isSpan : arraySpan length size = .ok span) :
    span = exactArraySpan length size ∧ (0 < length → 0 < size) := by
  have sized : 0 < length → 0 < size :=
    fun notEmpty => size_pos_of_arraySpan notEmpty isSpan
  rw [arraySpan_eq sized bounded] at isSpan
  exact ⟨(Except.ok.inj isSpan).symm, sized⟩

/-- An element lies at no negative slot. -/
theorem exactPlace_slot_nonneg
    {index size : Int}
    (nonneg : 0 ≤ index)
    (positive : 0 < size) :
    0 ≤ (exactPlace index size).slot := by
  unfold exactPlace
  split
  · next small =>
      exact Int.ediv_nonneg nonneg (perSlot_pos positive small).le
  · exact Int.mul_nonneg nonneg (exactSpan_nonneg positive.le)

/-- An element lies at no negative offset. -/
theorem exactPlace_offset_nonneg
    {index size : Int}
    (positive : 0 < size) :
    0 ≤ (exactPlace index size).offset := by
  unfold exactPlace
  split
  · next small =>
      have perSlot := perSlot_pos positive small
      exact Int.mul_nonneg (Int.emod_nonneg _ perSlot.ne') positive.le
  · exact le_refl _

/-- An element of up to a slot ends in the slot in which it starts. -/
theorem exactPlace_offset_add_le
    {index size : Int}
    (positive : 0 < size)
    (small : size ≤ slotSize) :
    (exactPlace index size).offset + size ≤ slotSize := by
  have perSlot := perSlot_pos positive small
  have below : index % (slotSize / size) + 1 ≤ slotSize / size :=
    Int.emod_lt_of_pos _ perSlot
  simp only [exactPlace, if_pos small]
  calc
    index % (slotSize / size) * size + size
        = (index % (slotSize / size) + 1) * size := by ring
    _ ≤ slotSize / size * size :=
      Int.mul_le_mul_of_nonneg_right below positive.le
    _ ≤ slotSize := perSlot_mul_le positive

/-- An element that takes whole slots starts at the beginning of one. -/
theorem exactPlace_offset_of_dvd
    {index size : Int}
    (positive : 0 < size)
    (whole : 32 ∣ size) :
    (exactPlace index size).offset = 0 := by
  unfold exactPlace
  split
  · next small =>
      have isSlot : size = 32 := by
        simp only [slotSize] at small
        omega
      simp [isSlot, slotSize]
  · rfl

/-- A later element starts at or behind the end of an earlier one. -/
theorem exactPlace_end_le
    {earlier later size : Int}
    (positive : 0 < size)
    (order : earlier < later) :
    32 * (exactPlace earlier size).slot +
      (exactPlace earlier size).offset + size ≤
      32 * (exactPlace later size).slot + (exactPlace later size).offset := by
  unfold exactPlace
  split
  · next small =>
      set perSlot : Int := slotSize / size with perSlotDef
      have perSlotPos : 0 < perSlot := perSlot_pos positive small
      have fits : perSlot * size ≤ 32 := perSlot_mul_le positive
      have slots : earlier / perSlot ≤ later / perSlot :=
        Int.ediv_le_ediv perSlotPos order.le
      have earlierSplit := Int.mul_ediv_add_emod earlier perSlot
      have laterSplit := Int.mul_ediv_add_emod later perSlot
      have laterNonneg : 0 ≤ later % perSlot :=
        Int.emod_nonneg _ perSlotPos.ne'
      have earlierBelow : earlier % perSlot + 1 ≤ perSlot :=
        Int.emod_lt_of_pos _ perSlotPos
      rcases slots.lt_or_eq with nextSlot | sameSlot
      · have inSlot : (earlier % perSlot + 1) * size ≤ perSlot * size :=
          Int.mul_le_mul_of_nonneg_right earlierBelow positive.le
        have offsetNonneg : 0 ≤ later % perSlot * size :=
          Int.mul_nonneg laterNonneg positive.le
        simp only
        linarith
      · have inOrder : earlier % perSlot + 1 ≤ later % perSlot := by
          rw [sameSlot] at earlierSplit
          omega
        have := Int.mul_le_mul_of_nonneg_right inOrder positive.le
        simp only [sameSlot]
        linarith
  · have spanned : size ≤ 32 * exactSpan size := by
      simp only [exactSpan]
      omega
    have atLeast : (earlier + 1) * exactSpan size ≤ later * exactSpan size :=
      Int.mul_le_mul_of_nonneg_right (by omega) (exactSpan_nonneg positive.le)
    simp only
    linarith

/-- Every element lies in the slots of its array. -/
theorem exactPlace_slot_add_le
    {index length size : Int}
    (positive : 0 < size)
    (nonneg : 0 ≤ index)
    (inside : index < length) :
    (exactPlace index size).slot + exactSpan size ≤
      exactArraySpan length size := by
  have notEmpty : ¬ length ≤ 0 := by
    omega
  have order : index ≤ length - 1 := by
    omega
  simp only [exactArraySpan, if_neg notEmpty, Int.add_le_add_iff_right]
  unfold exactPlace
  split
  · next small =>
      exact Int.ediv_le_ediv (perSlot_pos positive small) order
  · exact Int.mul_le_mul_of_nonneg_right order (exactSpan_nonneg positive.le)

/-- An array takes no negative number of slots. -/
theorem exactArraySpan_nonneg
    {length size : Int}
    (positive : 0 < size) :
    0 ≤ exactArraySpan length size := by
  unfold exactArraySpan
  split
  · exact le_refl _
  · exact Int.add_nonneg
      (exactPlace_slot_nonneg (by omega) positive)
      (exactSpan_nonneg positive.le)

/-- A slot holds no more than 32 elements. -/
theorem length_le_exactArraySpan
    {length size : Int}
    (positive : 0 < size) :
    length ≤ 32 * exactArraySpan length size := by
  by_cases empty : length ≤ 0
  · have : 0 ≤ exactArraySpan length size :=
      exactArraySpan_nonneg positive
    omega
  · have span := exactSpan_pos positive
    simp only [exactArraySpan, if_neg empty]
    unfold exactPlace
    split
    · next small =>
        have perSlotPos := perSlot_pos positive small
        have atMost : (slotSize : Int) / size ≤ 32 :=
          Int.ediv_le_self _ (by decide)
        have split := Int.mul_ediv_add_emod (length - 1) (slotSize / size)
        have rest := Int.emod_lt_of_pos (length - 1) perSlotPos
        have quotient : 0 ≤ (length - 1) / (slotSize / size) :=
          Int.ediv_nonneg (by omega) perSlotPos.le
        have := Int.mul_le_mul_of_nonneg_right atMost quotient
        simp only
        linarith
    · have : (length - 1) * 1 ≤ (length - 1) * exactSpan size :=
        Int.mul_le_mul_of_nonneg_left span (by omega)
      simp only
      linarith

end EvmStorage
