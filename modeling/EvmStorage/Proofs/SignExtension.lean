import EvmStorage.Proofs.ByteString
import EvmStorage.Word
import Mathlib.Tactic.Linarith
import Mathlib.Tactic.Zify

namespace EvmStorage

/-!
# Sign extension

Bytes store an integer in two's complement if the upper half of the numbers
that they can write stands for the integers below zero.  In the word of the
integer all bytes in front of them repeat its sign.
-/

namespace Bytes

/-- Whether bytes store a number below zero, in two's complement. -/
def isNegative (data : Bytes) : Bool :=
  data.head?.any (128 ≤ ·.toNat)

/-- The integer that bytes store in two's complement. -/
def toInt (data : Bytes) : Int :=
  if data.isNegative then (toNat data : Int) - 256 ^ data.length else toNat data

/--
Bytes store a number below zero if it is in the upper half of those that they
can write.
-/
theorem isNegative_iff
    {first : UInt8}
    {rest : Bytes} :
    isNegative (first :: rest) ↔
      128 * 256 ^ rest.length ≤ toNat (first :: rest) := by
  have isRest := toNat_lt rest
  rw [toNat_cons]
  simp only [isNegative, List.head?_cons, Option.any_some, decide_eq_true_eq]
  constructor
  · intro isUpper
    exact le_add_right (Nat.mul_le_mul_right _ isUpper)
  · intro isUpper
    by_contra isLower
    have atMost : first.toNat * 256 ^ rest.length ≤ 127 * 256 ^ rest.length :=
      Nat.mul_le_mul_right _ (by omega)
    omega

/-- The integers that bytes store are those of their width. -/
theorem toInt_bounds
    {data : Bytes}
    (notEmpty : data ≠ []) :
    -(2 : Int) ^ (8 * data.length - 1) ≤ data.toInt ∧
      data.toInt < 2 ^ (8 * data.length - 1) := by
  cases data with
  | nil =>
      exact absurd rfl notEmpty
  | cons first rest =>
      have isWidth : 8 * (rest.length + 1) - 1 = 7 + 8 * rest.length := by
        omega
      have isHalf :
          (2 : Int) ^ (8 * (rest.length + 1) - 1) =
            128 * 256 ^ rest.length := by
        rw [isWidth, pow_add, pow_mul]
        norm_num
      have below := toNat_lt (first :: rest)
      have isUpper := @isNegative_iff first rest
      rw [toInt, List.length_cons, isHalf]
      rw [List.length_cons] at below
      zify at below isUpper
      rw [pow_succ] at below ⊢
      split
      · next isNegative =>
          have := isUpper.mp isNegative
          constructor <;> linarith
      · next notNegative =>
          have := mt isUpper.mpr notNegative
          constructor <;> linarith

/--
Bytes write the integer that they store modulo the power of 256 of their
length.
-/
theorem toInt_emod (data : Bytes) :
    data.toInt % 256 ^ data.length = toNat data := by
  have below : (toNat data : Int) < 256 ^ data.length := by
    exact_mod_cast toNat_lt data
  rw [toInt]
  split
  · rw [Int.sub_emod_right, Int.emod_eq_of_lt (by omega) below]
  · rw [Int.emod_eq_of_lt (by omega) below]

end Bytes

namespace Word

variable {data : Bytes}

/-- The word of a number that is written in fewer bytes has zeros in front. -/
theorem ofNat_toNat
    (fits : data.length ≤ slotSize) :
    ofNat (Bytes.toNat data) =
      List.replicate (slotSize - data.length) 0 ++ data := by
  have isWidth : slotSize - data.length + data.length = slotSize :=
    Nat.sub_add_cancel fits
  have isWord := Bytes.ofNat_add_toNat (slotSize - data.length) 0 data
  rwa [isWidth, Nat.zero_mul, Nat.zero_add, Bytes.ofNat_zero] at isWord

/--
The word of an integer that is stored in fewer bytes has its sign in front.
-/
theorem ofNat_toInt
    (fits : data.length ≤ slotSize) :
    ofNat (data.toInt % slotModulus).toNat =
      List.replicate (slotSize - data.length)
        (if data.isNegative then 255 else 0) ++ data := by
  have isWidth : slotSize - data.length + data.length = slotSize :=
    Nat.sub_add_cancel fits
  have isModulus :
      slotModulus =
        (256 ^ (slotSize - data.length) * 256 ^ data.length : Nat) := by
    rw [← pow_add, isWidth]
    decide +kernel
  have below := Bytes.toNat_lt data
  have inside :
      256 ^ data.length ≤ 256 ^ (slotSize - data.length) * 256 ^ data.length :=
    Nat.le_mul_of_pos_left _ (Nat.pow_pos (by decide))
  split
  · next isNegative =>
      have isStored :
          data.toInt =
            ((256 ^ (slotSize - data.length) - 1) * 256 ^ data.length +
              Bytes.toNat data : Nat) - slotModulus := by
        rw [Bytes.toInt, if_pos isNegative, isModulus, Nat.sub_one_mul]
        push_cast [Nat.cast_sub inside]
        ring
      have isWord :=
        Bytes.ofNat_add_toNat (slotSize - data.length)
          (256 ^ (slotSize - data.length) - 1) data
      rw [isWidth, Bytes.ofNat_greatest] at isWord
      rw [isStored, Int.sub_emod_right,
        Int.emod_eq_of_lt (Int.natCast_nonneg _), Int.toNat_natCast, ofNat,
        isWord]
      rw [isModulus, Nat.cast_lt, Nat.sub_one_mul]
      omega
  · next notNegative =>
      rw [Bytes.toInt, if_neg notNegative,
        Int.emod_eq_of_lt (Int.natCast_nonneg _), Int.toNat_natCast,
        ofNat_toNat fits]
      rw [isModulus, Nat.cast_lt]
      exact below.trans_le inside

end Word

end EvmStorage
