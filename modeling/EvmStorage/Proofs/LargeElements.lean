import EvmStorage.Proofs.ArrayElements
import EvmStorage.Proofs.PartPlaces

namespace EvmStorage

/-!
# Elements of many slots

An element that fills whole slots takes as many of them as a division in
floating point finds.  That division rounds their number to 53 significant
bits, so an index leads exactly to its element only if the number has no more
than these; otherwise every element in front of it adds the same error.
-/

section Rounding

variable {numerator denominator bound n exponent : Nat}

/--
A rounded quotient is at most half of the denominator away from the numerator.
-/
theorem roundQuotient_nearest
    (numerator : Nat)
    (positive : 0 < denominator) :
    2 * (Binary64.roundQuotient numerator denominator * denominator) ≤
        2 * numerator + denominator ∧
      2 * numerator ≤
        2 * (Binary64.roundQuotient numerator denominator * denominator) +
          denominator := by
  have whole := Nat.div_add_mod' numerator denominator
  have rest := Nat.mod_lt numerator positive
  simp only [Binary64.roundQuotient]
  split
  · next roundsUp =>
      rw [Nat.add_mul, Nat.one_mul]
      omega
  · next roundsDown =>
      omega

/-- A quotient is rounded to itself if nothing is left over. -/
theorem roundQuotient_of_dvd
    (positive : 0 < denominator)
    (divides : denominator ∣ numerator) :
    Binary64.roundQuotient numerator denominator = numerator / denominator := by
  have noRest := Nat.mod_eq_zero_of_dvd divides
  simp [Binary64.roundQuotient, noRest, positive.ne]

/-- A common factor does not change how a quotient is rounded. -/
theorem roundQuotient_mul_left
    {factor : Nat}
    (positive : 0 < factor) :
    Binary64.roundQuotient (factor * numerator) (factor * denominator) =
      Binary64.roundQuotient numerator denominator := by
  have sameOrder :
      2 * (factor * (numerator % denominator)) > factor * denominator ↔
        2 * (numerator % denominator) > denominator := by
    rw [Nat.mul_left_comm]
    exact Nat.mul_lt_mul_left positive
  have sameHalf :
      2 * (factor * (numerator % denominator)) = factor * denominator ↔
        2 * (numerator % denominator) = denominator := by
    rw [Nat.mul_left_comm]
    exact Nat.mul_right_inj positive.ne'
  simp only [Binary64.roundQuotient, Nat.mul_div_mul_left _ _ positive,
    Nat.mul_mod_mul_left, sameOrder, sameHalf]

/--
A quotient that is at least as near to an even number as to the one below is
not less.
-/
theorem le_roundQuotient
    (positive : 0 < denominator)
    (isEven : bound % 2 = 0)
    (near : 2 * (bound * denominator) ≤ 2 * numerator + denominator) :
    bound ≤ Binary64.roundQuotient numerator denominator := by
  have whole := Nat.div_add_mod' numerator denominator
  have rest := Nat.mod_lt numerator positive
  by_contra tooLow
  have atMost : Binary64.roundQuotient numerator denominator + 1 ≤ bound :=
    not_le.mp tooLow
  have step := Nat.mul_le_mul_right denominator atMost
  simp only [Binary64.roundQuotient] at step atMost
  split at step
  · rw [Nat.add_mul, Nat.add_mul, Nat.one_mul] at step
    omega
  · next roundsDown =>
      rw [Nat.add_mul, Nat.one_mul] at step
      -- Half a denominator is left over, and the quotient below an even bound
      -- is odd.
      have sameProduct :
          bound * denominator =
            (numerator / denominator + 1) * denominator := by
        rw [Nat.add_mul, Nat.one_mul]
        omega
      have isNext := Nat.eq_of_mul_eq_mul_right positive sameProduct
      omega

/-- A number is rounded to one that is at most half of its unit away. -/
theorem roundTo53Bits_nearest (n : Nat) :
    2 * roundTo53Bits n ≤ 2 * n + 2 ^ (n.log2 - 52) ∧
      2 * n ≤ 2 * roundTo53Bits n + 2 ^ (n.log2 - 52) :=
  roundQuotient_nearest n (Nat.two_pow_pos _)

/--
The numbers that are not changed are those with at most 53 significant bits.
-/
theorem roundTo53Bits_eq_self_iff :
    roundTo53Bits n = n ↔ 2 ^ (n.log2 - 52) ∣ n := by
  constructor
  · intro unchanged
    rw [roundTo53Bits] at unchanged
    exact Dvd.intro_left _ unchanged
  · intro divides
    simp only [roundTo53Bits, Nat.pow_eq,
      roundQuotient_of_dvd (Nat.two_pow_pos _) divides]
    exact Nat.div_mul_cancel divides

/-- Rounding does not depend on a factor of 32. -/
theorem roundTo53Bits_mul_32 (n : Nat) :
    roundTo53Bits (32 * n) = 32 * roundTo53Bits n := by
  rcases Nat.eq_zero_or_pos n with rfl | positive
  · decide
  have isLog : (32 * n).log2 = n.log2 + 5 := by
    have atLeast := Nat.log2_self_le positive.ne'
    have below := @Nat.lt_log2_self n
    rw [Nat.log2_eq_iff (by omega)]
    constructor
    · rw [pow_add]
      omega
    · rw [Nat.add_right_comm, pow_add]
      omega
  by_cases small : n.log2 < 52
  · have noUnit : n.log2 - 52 = 0 := by
      omega
    have kept : roundTo53Bits n = n :=
      roundTo53Bits_eq_self_iff.mpr (by rw [noUnit]; exact one_dvd n)
    have factorKept : roundTo53Bits (32 * n) = 32 * n := by
      apply roundTo53Bits_eq_self_iff.mpr
      rw [isLog]
      have : n.log2 + 5 - 52 ≤ 5 := by
        omega
      exact (pow_dvd_pow 2 this).mul_right n
    rw [kept, factorKept]
  · have isUnit : n.log2 + 5 - 52 = 5 + (n.log2 - 52) := by
      omega
    simp only [roundTo53Bits, isLog, isUnit, Nat.pow_eq, pow_add]
    rw [show (2 : Nat) ^ 5 = 32 from rfl, roundQuotient_mul_left (by decide)]
    ring

/--
A number that is at least as near to a power of two as to the numbers below is
not below it.
-/
theorem le_roundTo53Bits
    (near : 2 * 2 ^ (53 + exponent) ≤ 2 * n + 2 ^ exponent) :
    2 ^ (53 + exponent) ≤ roundTo53Bits n := by
  have unitPos := Nat.two_pow_pos (n.log2 - 52)
  have doubled : 2 ^ (53 + exponent) = 2 ^ (52 + exponent) * 2 := by
    rw [← pow_succ, Nat.add_right_comm]
  have small : 2 ^ exponent ≤ 2 ^ (52 + exponent) :=
    Nat.pow_le_pow_right (by decide) (by omega)
  have notZero : n ≠ 0 := by
    rintro rfl
    have := Nat.two_pow_pos exponent
    omega
  have isLarge : 52 + exponent ≤ n.log2 := by
    rw [Nat.le_log2 notZero]
    omega
  rcases isLarge.eq_or_lt with isTop | isBeyond
  · have isExponent : n.log2 - 52 = exponent := by
      omega
    simp only [roundTo53Bits, isExponent, Nat.pow_eq, pow_add]
    apply Nat.mul_le_mul_right
    apply le_roundQuotient (Nat.two_pow_pos _) (by decide)
    rwa [← pow_add]
  · have isFull : 2 ^ n.log2 = 2 ^ 52 * 2 ^ (n.log2 - 52) := by
      rw [← pow_add]
      congr 1
      omega
    have atLeast : 2 ^ 52 * 2 ^ (n.log2 - 52) ≤ n := by
      rw [← isFull]
      exact Nat.log2_self_le notZero
    calc
      2 ^ (53 + exponent) ≤ 2 ^ n.log2 :=
        Nat.pow_le_pow_right (by decide) (by omega)
      _ = 2 ^ 52 * 2 ^ (n.log2 - 52) := isFull
      _ ≤ roundTo53Bits n := by
        apply Nat.mul_le_mul_right
        apply le_roundQuotient unitPos (by decide)
        omega

end Rounding

/--
An element of whole slots takes as many of them as their number is rounded to.
-/
theorem slotSpan_of_wholeSlots (k : Nat) :
    slotSpan (32 * k) =
      if 32 * k < spanBound then
        .ok (roundTo53Bits k : Int)
      else
        .error (.misuse (.sizeTooLarge (32 * k))) := by
  have isSize : (32 * (k : Int)).natAbs = 32 * k := by
    omega
  have nonneg : 0 ≤ 32 * (k : Int) := by
    omega
  simp only [slotSpan, isSize, roundTo53Bits_mul_32, if_pos nonneg, Int.pow_eq]
  by_cases bounded : 32 * k < spanBound
  · have below : 32 * roundTo53Bits k < 2 ^ (53 + (975 + 1)) := by
      rw [← roundTo53Bits_mul_32]
      apply roundTo53Bits_lt
      rw [spanBound, Nat.lt_sub_iff_add_lt] at bounded
      rw [pow_succ' 2 975]
      omega
    have small : ¬ (2 : Int) ^ 1029 ≤ (32 * roundTo53Bits k : Nat) := by
      have cast := Int.ofNat_lt.mpr below
      rw [Nat.cast_pow] at cast
      exact not_le.mpr cast
    rw [if_neg small, if_pos bounded]
    congr 1
    omega
  · have atLeast : 2 ^ (53 + (975 + 1)) ≤ 32 * roundTo53Bits k := by
      rw [← roundTo53Bits_mul_32]
      apply le_roundTo53Bits
      rw [spanBound, not_lt, Nat.sub_le_iff_le_add] at bounded
      rw [pow_succ' 2 975]
      omega
    have large : (2 : Int) ^ 1029 ≤ (32 * roundTo53Bits k : Nat) := by
      have cast := Int.ofNat_le.mpr atLeast
      rwa [Nat.cast_pow] at cast
    rw [if_pos large, if_neg bounded]

/-- Where an element of whole slots lies. -/
theorem elementPlace_of_wholeSlots
    {index : Int}
    {k : Nat}
    (nonneg : 0 ≤ index)
    (positive : 0 < k) :
    elementPlace index (32 * k) =
      if 32 * k < spanBound then
        .ok { slot := index * roundTo53Bits k, offset := 0 }
      else
        .error (.misuse (.sizeTooLarge (32 * k))) := by
  have notEmpty : ¬ 32 * (k : Int) ≤ 0 := by
    omega
  unfold elementPlace
  rw [if_neg notEmpty, if_neg (not_lt_of_ge nonneg)]
  split
  · next isSmall =>
      obtain rfl : k = 1 := by
        rw [slotSize] at isSmall
        omega
      have bounded : 32 * 1 < spanBound := by
        decide +kernel
      have kept : roundTo53Bits 1 = 1 := by
        decide
      rw [if_pos bounded, kept]
      simp [slotSize]
  · rw [slotSpan_of_wholeSlots]
    split
    · rfl
    · rfl

namespace Position

/-- Where the elements of an array start, for an index that it has. -/
inductive ElementsFrom
    (hash : Digest)
    (position : Position)
    (type : TypeEntry)
    (index : Int) :
    Int →
    Prop where
  | fixed
      {length : Int}
      (isFixedArray : type.isFixedArray)
      (hasLength : type.fixedLength = .ok length)
      (inside : index < length) :
      ElementsFrom hash position type index position.slot
  | dynamic
      (isDynamicArray : type.isDynamicArray) :
      ElementsFrom hash position type index
        (hash (Word.ofNat position.slot.toNat))

variable {hash : Digest} {layout : Layout} {position : Position}
  {type : TypeEntry} {index : Value} {i start : Int} {k : Nat}

/-- The elements of an array start where they are looked for. -/
theorem ElementsFrom.elementsStart_eq
    (startsAt : position.ElementsFrom hash type i start)
    (inside : inSlotSpace position.slot) :
    position.elementsStart hash type i = .ok start := by
  cases startsAt with
  | @fixed length isFixedArray hasLength inside =>
      have notDynamic : type.isDynamicArray = false := by
        simp [TypeEntry.isDynamicArray,
          (TypeEntry.isFixedArray_iff.mp isFixedArray).1]
      simp [elementsStart, notDynamic, hasLength, not_le_of_gt inside]
  | dynamic isDynamicArray =>
      rw [elementsStart, if_pos isDynamicArray, dataSlot_eq inside]

/-- What has elements is an array. -/
theorem ElementsFrom.isArray
    (startsAt : position.ElementsFrom hash type i start) :
    type.isArray := by
  cases startsAt with
  | fixed isFixedArray hasLength inside =>
      simp [TypeEntry.isArray, isFixedArray]
  | dynamic isDynamicArray =>
      simp [TypeEntry.isArray, isDynamicArray]

/-- The element of an array that starts some slots behind the first one. -/
def elementBehind
    (position : Position)
    (type : TypeEntry)
    (start slots : Int) :
    Position where
  slot := (start + slots) % slotModulus
  offset := 0
  type := type.base.getD .null
  address := position.address
  block := position.block

/--
An index leads as many times the rounded number of slots of an element on as it
tells.
-/
theorem step_index_eq
    (onType : layout.lookup position.type = .ok type)
    (inside : inSlotSpace position.slot)
    (hasSize : layout.sizeOf (type.base.getD .null) = .ok (32 * k))
    (positive : 0 < k)
    (isIndex : readIndex index = .ok i)
    (startsAt : position.ElementsFrom hash type i start) :
    position.step hash layout (.index index) =
      if 32 * k < spanBound then
        .ok (position.elementBehind type start (i * roundTo53Bits k))
      else
        .error (.misuse (.sizeTooLarge (32 * k))) := by
  have isPlace :=
    elementPlace_of_wholeSlots (nonneg_of_readIndex isIndex) positive
  simp only [step, onType, Outcome.ok_bind, stepWithin, startsAt.isArray,
    ↓reduceIte, element, isIndex, hasSize, startsAt.elementsStart_eq inside,
    isPlace]
  split
  · rfl
  · rfl

/-- Two elements are the same if the slots between them go around all slots. -/
theorem elementBehind_eq_iff
    {slots others : Int} :
    position.elementBehind type start slots =
      position.elementBehind type start others ↔
      slotModulus ∣ slots - others := by
  rw [elementBehind, elementBehind, Position.mk.injEq]
  simp only [and_true]
  rw [Int.emod_eq_emod_iff_emod_sub_eq_zero, Int.add_sub_add_left,
    Int.dvd_iff_emod_eq_zero]

/--
An index leads to the exact place of an element as far as 53 bits count its
slots.

The element lies as many times the slots of one behind the first one as the
index tells, where their number is rounded to the nearest one with 53
significant bits.  The place is exact if the error of all elements in front of
it goes around all slots, in particular if nothing is rounded, and there is
none if the number is too large to be rounded.
-/
theorem step_index_of_wholeSlots
    (onType : layout.lookup position.type = .ok type)
    (inside : inSlotSpace position.slot)
    (hasSize : layout.sizeOf (type.base.getD .null) = .ok (32 * k))
    (positive : 0 < k)
    (isIndex : readIndex index = .ok i)
    (startsAt : position.ElementsFrom hash type i start) :
    (position.step hash layout (.index index) =
          .ok (position.elementBehind type start (i * k)) ↔
        32 * k < spanBound ∧ slotModulus ∣ i * roundTo53Bits k - i * k) ∧
      (32 * k < spanBound →
        position.step hash layout (.index index) =
          .ok (position.elementBehind type start (i * roundTo53Bits k))) ∧
      (spanBound ≤ 32 * k →
        position.step hash layout (.index index) =
          .error (.misuse (.sizeTooLarge (32 * k)))) ∧
      (roundTo53Bits k = k ↔ 2 ^ (k.log2 - 52) ∣ k) ∧
      2 * roundTo53Bits k ≤ 2 * k + 2 ^ (k.log2 - 52) ∧
      2 * k ≤ 2 * roundTo53Bits k + 2 ^ (k.log2 - 52) := by
  have isElement :=
    step_index_eq onType inside hasSize positive isIndex startsAt
  refine ⟨?_, fun bounded => by rw [isElement, if_pos bounded],
    fun unbounded => by rw [isElement, if_neg (not_lt_of_ge unbounded)],
    roundTo53Bits_eq_self_iff, roundTo53Bits_nearest k⟩
  rw [isElement]
  split
  · next bounded =>
      rw [Except.ok.injEq, elementBehind_eq_iff]
      exact (and_iff_right bounded).symm
  · next unbounded =>
      exact iff_of_false (by simp) fun isExact => unbounded isExact.1

end Position

/-- A row of words. -/
def rowType (id label : String) (words : Nat) : TypeEntry where
  id := id
  label := .text label
  encoding := .inplace
  size := 32 * words
  base := some (.text "word")
  key := none
  value := none
  members := none

/-- A row of as many words as 53 significant bits count. -/
def evenRow : TypeEntry :=
  rowType "even" "uint256[1152921504606846976]" (2 ^ 60)

/-- A row of one word more. -/
def oddRow : TypeEntry :=
  rowType "odd" "uint256[1152921504606846977]" (2 ^ 60 + 1)

/-- A list of rows. -/
def evenRows : TypeEntry where
  id := "evens"
  label := .text "uint256[1152921504606846976][]"
  encoding := .dynamicArray
  size := 32
  base := some (.text "even")
  key := none
  value := none
  members := none

/-- Four rows of one word more. -/
def oddRows : TypeEntry where
  id := "odds"
  label := .text "uint256[1152921504606846977][4]"
  encoding := .inplace
  size := 4 * oddRow.size
  base := some (.text "odd")
  key := none
  value := none
  members := none

/-- A layout of rows. -/
def rows : Layout where
  stateVariables := []
  types := [Contract.wordType, evenRow, oddRow, evenRows, oddRows]

/-- The position of rows that start at the first slot. -/
def rowsAt (id : String) : Position where
  slot := 0
  offset := 0
  type := .text id
  address := "0x00"
  block := .text "latest"

/--
The seventh of rows whose slots 53 bits count lies exactly behind six of them.
-/
theorem step_index_of_evenRows :
    (rowsAt "evens").step Keccak.digest rows (.index (.text "6")) =
      .ok
        ((rowsAt "evens").elementBehind evenRows (Keccak.digest (Word.ofNat 0))
          (6 * 2 ^ 60)) := by
  have isIndex : Position.readIndex (.text "6") = .ok 6 :=
    Outcome.eq_ok_of_toOption (by decide +kernel)
  have isExact : 32 * 2 ^ 60 < spanBound ∧
      slotModulus ∣
        6 * (roundTo53Bits (2 ^ 60) : Int) - 6 * (2 ^ 60 : Nat) := by
    decide +kernel
  exact
    (@Position.step_index_of_wholeSlots Keccak.digest rows
      (rowsAt "evens") evenRows _ 6 _ (2 ^ 60)
      rfl (by decide +kernel) rfl (by decide) isIndex
        (.dynamic rfl)).1.mpr isExact

/--
The second of four rows is found one slot too early, because their slots have
61 bits.
-/
theorem step_index_of_oddRows :
    rows.lookup (rowsAt "odds").type = .ok oddRows ∧
      inSlotSpace (rowsAt "odds").slot ∧
      rows.sizeOf (oddRows.base.getD .null) = .ok (32 * (2 ^ 60 + 1)) ∧
      Position.readIndex (.int 1) = .ok 1 ∧
      (rowsAt "odds").ElementsFrom Keccak.digest oddRows 1 0 ∧
      (rowsAt "odds").step Keccak.digest rows (.index (.int 1)) =
        .ok ((rowsAt "odds").elementBehind oddRows 0 (2 ^ 60)) ∧
      (rowsAt "odds").elementBehind oddRows 0 (2 ^ 60) ≠
        (rowsAt "odds").elementBehind oddRows 0 (1 * (2 ^ 60 + 1)) := by
  have hasLength : oddRows.fixedLength = .ok 4 :=
    Outcome.eq_ok_of_toOption (by decide +kernel)
  exact ⟨rfl, by decide +kernel, rfl, rfl, .fixed rfl hasLength (by decide),
    Outcome.eq_ok_of_toOption (by decide +kernel), by decide +kernel⟩

end EvmStorage
