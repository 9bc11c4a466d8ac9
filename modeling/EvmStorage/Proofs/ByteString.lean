import EvmStorage.Bytes
import Mathlib.Data.List.Induction
import Mathlib.Tactic.Ring

namespace EvmStorage.Bytes

/-!
# Numbers in byte strings

Writing a number with a width of bytes and reading it back gives the number
modulo the power of 256 that belongs to the width.
-/

@[simp]
theorem toNat_nil :
    toNat [] = 0 :=
  rfl

/-- The last byte counts once, and what is in front of it 256 times. -/
@[simp]
theorem toNat_concat
    (bytes : Bytes)
    (byte : UInt8) :
    toNat (bytes ++ [byte]) = toNat bytes * 256 + byte.toNat := by
  simp [toNat]

/-- A byte string writes a number below the power of 256 of its length. -/
theorem toNat_lt (bytes : Bytes) :
    toNat bytes < 256 ^ bytes.length := by
  induction bytes using List.reverseRecOn with
  | nil =>
      simp
  | append_singleton bytes byte inductionHypothesis =>
      have := byte.toNat_lt
      simp only [toNat_concat, List.length_append, List.length_singleton,
        pow_succ]
      omega

@[simp]
theorem length_ofNat
    (width n : Nat) :
    (ofNat width n).length = width := by
  induction width generalizing n with
  | zero =>
      rfl
  | succ width inductionHypothesis =>
      simp [ofNat, inductionHypothesis]

/--
A number that is written and read back loses what does not fit in its width.
-/
theorem toNat_ofNat
    (width n : Nat) :
    toNat (ofNat width n) = n % 256 ^ width := by
  induction width generalizing n with
  | zero =>
      simp [ofNat, Nat.mod_one]
  | succ width inductionHypothesis =>
      have low : (UInt8.ofNat n).toNat = n % 256 := by
        simp
      simp only [ofNat, toNat_concat, inductionHypothesis, low]
      rw [pow_succ, Nat.mul_comm (256 ^ width) 256, Nat.mod_mul]
      omega

/-- The first byte counts as often as the bytes behind it have numbers. -/
theorem toNat_cons
    (byte : UInt8)
    (bytes : Bytes) :
    toNat (byte :: bytes) = byte.toNat * 256 ^ bytes.length + toNat bytes := by
  induction bytes using List.reverseRecOn with
  | nil =>
      simp [toNat]
  | append_singleton bytes last inductionHypothesis =>
      rw [← List.cons_append, toNat_concat, inductionHypothesis, toNat_concat,
        List.length_append, List.length_singleton, pow_succ]
      ring

/-- Bytes in front of others count as often as the others have numbers. -/
theorem toNat_append (front back : Bytes) :
    toNat (front ++ back) = toNat front * 256 ^ back.length + toNat back := by
  induction front with
  | nil =>
      simp
  | cons byte rest inductionHypothesis =>
      rw [List.cons_append, toNat_cons, inductionHypothesis, toNat_cons,
        List.length_append, pow_add]
      ring

/-- The first bytes write the number without its lower digits. -/
theorem toNat_take
    (bytes : Bytes)
    (count : Nat) :
    toNat (bytes.take count) = toNat bytes / 256 ^ (bytes.length - count) := by
  have below := toNat_lt (bytes.drop count)
  have isSum := toNat_append (bytes.take count) (bytes.drop count)
  rw [List.take_append_drop] at isSum
  rw [List.length_drop] at below isSum
  rw [isSum, Nat.add_comm, Nat.add_mul_div_right _ _ (Nat.pow_pos (by decide)),
    Nat.div_eq_of_lt below, Nat.zero_add]

/-- The bytes behind the first ones write the lower digits of the number. -/
theorem toNat_drop
    (bytes : Bytes)
    (count : Nat) :
    toNat (bytes.drop count) = toNat bytes % 256 ^ (bytes.length - count) := by
  have below := toNat_lt (bytes.drop count)
  have isSum := toNat_append (bytes.take count) (bytes.drop count)
  rw [List.take_append_drop] at isSum
  rw [List.length_drop] at below isSum
  rw [isSum, Nat.mul_add_mod', Nat.mod_eq_of_lt below]

/-- A number in front of a byte string is written in front of the bytes. -/
theorem ofNat_add_toNat
    (width n : Nat)
    (bytes : Bytes) :
    ofNat (width + bytes.length) (n * 256 ^ bytes.length + toNat bytes) =
      ofNat width n ++ bytes := by
  induction bytes using List.reverseRecOn with
  | nil =>
      simp
  | append_singleton bytes last inductionHypothesis =>
      have isLast := last.toNat_lt
      have isNumber :
          n * 256 ^ (bytes.length + 1) + (toNat bytes * 256 + last.toNat) =
            (n * 256 ^ bytes.length + toNat bytes) * 256 + last.toNat := by
        ring
      have high :
          ((n * 256 ^ bytes.length + toNat bytes) * 256 + last.toNat) / 256 =
          n * 256 ^ bytes.length + toNat bytes := by
        omega
      have low : UInt8.ofNat
        ((n * 256 ^ bytes.length + toNat bytes) * 256 + last.toNat) =
          last := by
        rw [← UInt8.toNat_inj, UInt8.toNat_ofNat']
        omega
      rw [List.length_append, List.length_singleton, toNat_concat,
        ← Nat.add_assoc, isNumber, ofNat, high, low, inductionHypothesis,
        List.append_assoc]

/-- Zero is written in zeros. -/
theorem ofNat_zero (width : Nat) :
    ofNat width 0 = List.replicate width 0 := by
  induction width with
  | zero =>
      rfl
  | succ width inductionHypothesis =>
      rw [ofNat, Nat.zero_div, inductionHypothesis, List.replicate_succ']
      rfl

/-- The greatest number of a width is written in the greatest bytes. -/
theorem ofNat_greatest (width : Nat) :
    ofNat width (256 ^ width - 1) = List.replicate width 255 := by
  induction width with
  | zero =>
      rfl
  | succ width inductionHypothesis =>
      have isPositive : 0 < 256 ^ width :=
        Nat.pow_pos (by decide)
      have high : (256 ^ (width + 1) - 1) / 256 = 256 ^ width - 1 := by
        rw [pow_succ]
        omega
      have low : UInt8.ofNat (256 ^ (width + 1) - 1) = 255 := by
        rw [← UInt8.toNat_inj, UInt8.toNat_ofNat', pow_succ]
        simp
        omega
      rw [ofNat, high, low, inductionHypothesis, List.replicate_succ']

end EvmStorage.Bytes
