import EvmStorage.Layout
import Mathlib.Data.List.TakeWhile

namespace EvmStorage

/-!
# Lengths in labels

The length of a fixed array is what the digits between the last brackets of
its label write.  No sign can stand there, so a length is never negative.
-/

/-- A decimal digit has a value below ten. -/
theorem Text.lt_ten_of_digitValue?
    {c : Char}
    {digit : Nat}
    (isValue : digitValue? c = some digit) :
    digit < 10 := by
  obtain ⟨first, found, rfl⟩ := Option.map_eq_some_iff.mp isValue
  have inRun := List.find?_some found
  simp only [Bool.and_eq_true, decide_eq_true_eq] at inRun
  omega

namespace Numeral

/-- A digit of any script is read as a Latin one, so not as a minus sign. -/
theorem latin_ne_minus_of_isDigit
    {c : Char}
    (isDigit : Label.isDigit c) :
    latin c ≠ '-' := by
  obtain ⟨digit, isValue⟩ := Option.isSome_iff_exists.mp isDigit
  have isLatin : ∀ digit < 10, Nat.digitChar digit ≠ '-' := by
    decide
  simp only [latin, isValue]
  exact isLatin digit (Text.lt_ten_of_digitValue? isValue)

/-- Trimming a text leaves only characters of it. -/
private theorem mem_of_mem_trim
    {c : Char}
    {s : List Char}
    (isIn : c ∈ trim s) :
    c ∈ s := by
  simp only [trim, List.mem_reverse] at isIn
  have inFront := (List.dropWhile_sublist _).subset isIn
  rw [List.mem_reverse] at inFront
  exact (List.dropWhile_sublist _).subset inFront

/-- What begins with no minus sign is not read as a negative number. -/
theorem nonneg_of_signed?
    {base : Base}
    {s : List Char}
    {n : Int}
    (noMinus : s.head? ≠ some '-')
    (isRead : signed? base s = some n) :
    0 ≤ n := by
  unfold signed? at isRead
  split at isRead
  · exact absurd rfl noMinus
  all_goals
    simp only [Option.map_eq_some_iff, Option.bind_eq_bind,
      Option.bind_eq_some_iff, Option.pure_def, Option.some.injEq] at isRead
    obtain ⟨_, ⟨magnitude, _, rfl⟩, rfl⟩ := isRead
    exact Int.natCast_nonneg magnitude

/-- A numeral without a minus sign writes a number that is not negative. -/
theorem nonneg_of_read?
    {base : Base}
    {s : List Char}
    {n : Int}
    (noMinus : '-' ∉ s.map latin)
    (isRead : read? base s = some n) :
    0 ≤ n := by
  refine nonneg_of_signed? (fun startsWithMinus => ?_) isRead
  exact noMinus (mem_of_mem_trim (List.mem_of_mem_head? startsWithMinus))

end Numeral

namespace Label

/-- The last dimension of a label consists of digits. -/
theorem isDigit_of_mem_lastDimension?
    {label digits : List Char}
    (found : lastDimension? label = some digits)
    {c : Char}
    (isIn : c ∈ digits) :
    isDigit c := by
  simp only [lastDimension?] at found
  split at found
  · next rest _ =>
      split at found
      · cases found
        exact List.mem_takeWhile_imp (List.mem_reverse.mp isIn)
      · cases found
  · cases found

/-- Digits write a number that is not negative. -/
theorem numberOf_nonneg
    {digits : List Char}
    {n : Int}
    (areDigits : ∀ c ∈ digits, isDigit c)
    (isNumber : numberOf digits = .ok n) :
    0 ≤ n := by
  have noMinus : '-' ∉ digits.map Numeral.latin := by
    intro isIn
    obtain ⟨c, isDigit, isMinus⟩ := List.mem_map.mp isIn
    exact Numeral.latin_ne_minus_of_isDigit (areDigits c isDigit) isMinus
  simp only [numberOf] at isNumber
  split at isNumber
  · next found =>
      cases isNumber
      exact Numeral.nonneg_of_read? noMinus found
  · cases isNumber

end Label

/-- The length of a fixed array is not negative. -/
theorem TypeEntry.fixedLength_nonneg
    {type : TypeEntry}
    {length : Int}
    (isLength : type.fixedLength = .ok length) :
    0 ≤ length := by
  simp only [fixedLength] at isLength
  split at isLength
  · split at isLength
    · next found =>
        exact Label.numberOf_nonneg
          (fun _ isIn => Label.isDigit_of_mem_lastDimension? found isIn)
            isLength
    · cases isLength
  · cases isLength

end EvmStorage
