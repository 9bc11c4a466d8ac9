import EvmStorage.Proofs.ScalarValue
import Mathlib.Algebra.Order.Ring.Int
import Mathlib.Data.Int.ModEq

namespace EvmStorage

/-!
# Signed numbers in windows of words

In every width, two's complement relates the integers with a sign to the
numbers that may be stored, one to one.  A number that stores an integer is
congruent to it, and only integers that are neither of the width nor stored in
it already are refused.  Where such a number is put into a word, the integer is
decoded from there.
-/

namespace TwosComplement

variable {width : Nat} {n stored : Int}

/-- An integer is stored modulo the power of two of the width. -/
theorem encode_of_inside
    (positive : 0 < width)
    (above : -2 ^ (width - 1) ≤ n)
    (below : n < 2 ^ width) :
    encode n width = .ok (n % 2 ^ width) := by
  have notEmpty : ¬ (width : Int) ≤ 0 := by
    omega
  rw [encode, if_neg notEmpty, signBound_eq, modulus_eq, if_pos ⟨above, below⟩]

/-- An integer that is neither of the width nor stored in it is refused. -/
theorem encode_of_outside
    (positive : 0 < width)
    (outside : ¬ (-2 ^ (width - 1) ≤ n ∧ n < 2 ^ width)) :
    encode n width = .error (.misuse (.numberOutOfWidth n width)) := by
  have notEmpty : ¬ (width : Int) ≤ 0 := by
    omega
  rw [encode, if_neg notEmpty, signBound_eq, modulus_eq, if_neg outside]

/--
A number that stores an integer is one of the width, and congruent to the
integer.
-/
theorem facts_of_encode
    (positive : 0 < width)
    (isStored : encode n width = .ok stored) :
    0 ≤ stored ∧ stored < 2 ^ width ∧ stored ≡ n [ZMOD 2 ^ width] := by
  by_cases inside : -2 ^ (width - 1) ≤ n ∧ n < 2 ^ width
  · rw [encode_of_inside positive inside.1 inside.2] at isStored
    obtain rfl := Except.ok.inj isStored
    have isPositive : (0 : Int) < 2 ^ width :=
      Int.pow_pos (by decide)
    exact ⟨Int.emod_nonneg _ isPositive.ne', Int.emod_lt_of_pos _ isPositive,
      Int.mod_modEq _ _⟩
  · rw [encode_of_outside positive inside] at isStored
    cases isStored

/-- An integer with a sign is decoded from the number that stores it. -/
theorem exists_encode
    (positive : 0 < width)
    (above : -2 ^ (width - 1) ≤ n)
    (below : n < 2 ^ (width - 1)) :
    ∃ stored, encode n width = .ok stored ∧ decode stored width = .ok n := by
  have shorter : (2 : Int) ^ (width - 1) ≤ 2 ^ width :=
    pow_le_pow_right₀ (by decide) (by omega)
  exact ⟨_, encode_of_inside positive above (below.trans_le shorter),
    decode_emod positive above below⟩

/--
A number of a width stands for an integer with a sign that is stored as this
number.
-/
theorem exists_decode_of_stored
    (positive : 0 < width)
    (nonneg : 0 ≤ stored)
    (below : stored < 2 ^ width) :
    ∃ n,
      decode stored width = .ok n ∧
        -2 ^ (width - 1) ≤ n ∧
        n < 2 ^ (width - 1) ∧
        encode n width = .ok stored := by
  have notEmpty : ¬ (width : Int) ≤ 0 := by
    omega
  have twice := @modulus_eq_twice width positive
  rw [modulus_eq, signBound_eq] at twice
  rw [decode, if_neg notEmpty, signBound_eq, modulus_eq]
  by_cases negative : 2 ^ (width - 1) ≤ stored
  · rw [if_pos negative]
    refine ⟨_, rfl, by omega, by omega, ?_⟩
    rw [encode_of_inside positive (by omega) (by omega), Int.sub_emod_right,
      Int.emod_eq_of_lt nonneg below]
  · rw [if_neg negative]
    refine ⟨_, rfl, by omega, by omega, ?_⟩
    rw [encode_of_inside positive (by omega) below,
      Int.emod_eq_of_lt nonneg below]

end TwosComplement

namespace Word

/-- A word with other bytes at a distance of `offset` bytes from its end. -/
def overwrite
    (word : Bytes)
    (offset : Nat)
    (content : Bytes) :
    Bytes :=
  word.take (slotSize - offset - content.length) ++ content ++
    word.drop (slotSize - offset)

/-- The bytes that are put into a word are found there. -/
theorem window_overwrite
    {word content : Bytes}
    {offset : Nat}
    (wholeWord : word.length = slotSize)
    (notEmpty : 0 < content.length)
    (inSlot : offset + content.length ≤ slotSize) :
    window (overwrite word offset content) offset content.length =
      .ok content := by
  have inFront :
      (word.take (slotSize - offset - content.length)).length =
        slotSize - offset - content.length := by
    rw [List.length_take, wholeWord]
    omega
  have staysWhole : (overwrite word offset content).length = slotSize := by
    simp only [overwrite, List.length_append, inFront, List.length_drop,
      wholeWord]
    omega
  have inside :
      ¬ ((offset : Int) < 0 ∨ (content.length : Int) ≤ 0 ∨
        (offset : Int) + content.length > slotSize) := by
    omega
  have isStart :
      ((slotSize : Int) - offset - content.length).toNat =
        slotSize - offset - content.length := by
    omega
  rw [window, if_neg (not_not.mpr staysWhole), if_neg inside, isStart,
    Int.toNat_natCast, overwrite, List.append_assoc]
  rw [List.drop_left' inFront, List.take_left' rfl]

end Word

namespace TwosComplement

/--
In every width, encoding and decoding are inverse to each other, what is stored
is congruent to what it stores, and exactly the integers that are neither of the
width nor stored in it are refused.

If the width is one of whole bytes, an integer is decoded from every word that
the number that stores it is put into.
-/
theorem encode_inverts_decode
    {width : Nat}
    (positive : 0 < width) :
    (∀ n : Int,
        -2 ^ (width - 1) ≤ n →
        n < 2 ^ (width - 1) →
        ∃ stored, encode n width = .ok stored ∧ decode stored width = .ok n) ∧
      (∀ stored : Int,
        0 ≤ stored →
        stored < 2 ^ width →
        ∃ n,
          decode stored width = .ok n ∧
            -2 ^ (width - 1) ≤ n ∧
            n < 2 ^ (width - 1) ∧
            encode n width = .ok stored) ∧
      (∀ n stored : Int,
        encode n width = .ok stored →
        0 ≤ stored ∧ stored < 2 ^ width ∧ stored ≡ n [ZMOD 2 ^ width]) ∧
      (∀ n : Int,
        ((∃ stored, encode n width = .ok stored) ↔
          -2 ^ (width - 1) ≤ n ∧ n < 2 ^ width) ∧
          (encode n width = .error (.misuse (.numberOutOfWidth n width)) ↔
            ¬ (-2 ^ (width - 1) ≤ n ∧ n < 2 ^ width))) ∧
      ∀ (hash : Digest) (type : TypeEntry) (word : Bytes)
        (offset size : Nat) (n : Int),
        width = 8 * size →
        type.isScalar →
        type.label = .text (Label.ofWidth false .int width) →
        word.length = slotSize →
        offset + size ≤ slotSize →
        -2 ^ (width - 1) ≤ n →
        n < 2 ^ (width - 1) →
        ∃ stored data,
          encode n width = .ok stored ∧
            Word.window (Word.overwrite word offset
              (Bytes.ofNat size stored.toNat)) offset size =
              .ok data ∧
            Decode.scalar hash data type = .ok (.int n) := by
  refine ⟨fun n => exists_encode positive,
    fun stored => exists_decode_of_stored positive,
    fun n stored => facts_of_encode positive, fun n => ?_, ?_⟩
  · by_cases inside : -2 ^ (width - 1) ≤ n ∧ n < 2 ^ width
    · simp [encode_of_inside positive inside.1 inside.2, inside]
    · simp only [encode_of_outside positive inside, inside]
      simp
  · rintro hash type word offset size n rfl isScalar isLabel wholeWord inSlot
      above below
    obtain ⟨stored, isStored, isDecoded⟩ := exists_encode positive above below
    obtain ⟨nonneg, belowModulus, -⟩ := facts_of_encode positive isStored
    have isLength : (Bytes.ofNat size stored.toNat).length = size :=
      Bytes.length_ofNat _ _
    have isWindow :=
      @Word.window_overwrite word
        (Bytes.ofNat size stored.toNat) offset wholeWord (by omega) (by omega)
    rw [isLength] at isWindow
    exact ⟨stored, _, isStored, isWindow,
      Decode.scalar_of_stored isScalar isLabel
        (by omega) nonneg belowModulus isDecoded⟩

/-- The type of integers of two bytes with a sign. -/
def shortType : TypeEntry where
  id := "t_int16"
  label := .text "int16"
  encoding := .inplace
  size := 2
  base := none
  key := none
  value := none
  members := none

/--
A negative number of two bytes is put into the middle of a word of other bytes.
-/
theorem encode_of_minus254 :
    ∃ stored data,
      encode (-254) 16 = .ok stored ∧
        decode stored 16 = .ok (-254) ∧
        stored ≡ -254 [ZMOD 2 ^ 16] ∧
        Word.window (Word.overwrite (List.replicate 32 171) 3
          (Bytes.ofNat 2 stored.toNat)) 3 2 =
          .ok data ∧
        Decode.scalar Keccak.digest data shortType = .ok (.int (-254)) ∧
        encode 65536 16 = .error (.misuse (.numberOutOfWidth 65536 16)) := by
  obtain ⟨inverts, -, isCongruent, refuses, isDecoded⟩ :=
    encode_inverts_decode (by decide : 0 < 16)
  obtain ⟨stored, data, isStored, isWindow, isRead⟩ :=
    isDecoded Keccak.digest shortType (List.replicate 32 171) 3 2 (-254) rfl rfl
      (by decide) (by decide) (by decide) (by decide) (by decide)
  obtain ⟨other, isOther, isBack⟩ := inverts (-254) (by decide) (by decide)
  obtain rfl := Except.ok.inj (isStored.symm.trans isOther)
  exact ⟨stored, data, isStored, isBack, (isCongruent _ _ isStored).2.2,
    isWindow, isRead, (refuses 65536).2.mpr (by decide)⟩

end TwosComplement

end EvmStorage
