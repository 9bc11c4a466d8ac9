import EvmStorage.Proofs.Numerals

namespace EvmStorage

/-!
# Signs of digits

Decimal digits of any scripts are read as the number that they write.  There are
other signs of digits, such as superscripts and circled digits: they are not
read, and no numeral holds one of them.
-/

namespace Text

/--
The runs of characters of a class, by the code points of the first one and
behind the last.
-/
def Bounds.runs : Bounds → List (Nat × Nat)
  | start :: stop :: rest => (start, stop) :: runs rest
  | _ => []

/-- A character of a class with an end lies in one of its runs. -/
theorem Bounds.exists_run
    {bounds : Bounds}
    {c : Char}
    (isEven : bounds.length % 2 = 0)
    (holds : bounds.holds c) :
    ∃ run ∈ bounds.runs, run.1 ≤ c.toNat ∧ c.toNat < run.2 := by
  induction bounds using runs.induct with
  | case1 start stop rest inductionHypothesis =>
      rw [List.length_cons, List.length_cons] at isEven
      simp only [Bounds.holds] at holds
      split at holds
      · cases holds
      · next isBehind =>
          split at holds
          · next isBefore =>
              exact ⟨(start, stop), List.mem_cons_self,
                not_lt.mp isBehind, isBefore⟩
          · obtain ⟨run, isRun, inRun⟩ :=
              inductionHypothesis (by omega) (by simpa using holds)
            exact ⟨run, List.mem_cons_of_mem _ isRun, inRun⟩
  | case2 bounds notTwo =>
      cases bounds with
      | nil =>
          cases holds
      | cons start rest =>
          cases rest with
          | nil =>
              simp at isEven
          | cons stop rest =>
              exact absurd rfl (notTwo start stop rest)

/--
The signs of digits that are not written by place are neither blank nor ASCII
characters.
-/
theorem facts_of_digitSign
    {c : Char}
    (isSign : digitSignBounds.holds c) :
    128 ≤ c.toNat ∧ isBlank c = false := by
  have signsApart :
      ∀ run ∈ digitSignBounds.runs,
        128 ≤ run.1 ∧ ∀ blanks ∈ blankBounds.runs,
          run.2 ≤ blanks.1 ∨ blanks.2 ≤ run.1 := by
    decide
  obtain ⟨run, isRun, above, below⟩ := Bounds.exists_run (by decide) isSign
  obtain ⟨beyondAscii, apart⟩ := signsApart run isRun
  refine ⟨beyondAscii.trans above, ?_⟩
  by_contra isBlank
  obtain ⟨blanks, areBlanks, blankAbove, blankBelow⟩ :=
    @Bounds.exists_run blankBounds c (by decide)
      (by simpa [Text.isBlank] using isBlank)
  have := apart blanks areBlanks
  omega

end Text

namespace Numeral

/-- The sign of a digit that is not written by place is read as itself. -/
theorem latin_of_digitSign
    {c : Char}
    (noValue : Text.digitValue? c = none)
    (isSign : Text.digitSignBounds.holds c) :
    latin c = c := by
  obtain ⟨-, notBlank⟩ := Text.facts_of_digitSign isSign
  simp [latin, noValue, notBlank]

/-- The sign of a digit is neither read as a minus nor as a blank. -/
theorem latin_of_isDigitSign
    {c : Char}
    (isSign : Text.isDigitSign c) :
    isPadding (latin c) = false ∧ latin c ≠ '-' := by
  cases isValue : Text.digitValue? c with
  | some value =>
      have digits :
          ∀ value < 10,
            isPadding (Nat.digitChar value) = false ∧
              Nat.digitChar value ≠ '-' := by
        decide
      simp only [latin, isValue]
      exact digits value (Text.lt_ten_of_digitValue? isValue)
  | none =>
      have holds : Text.digitSignBounds.holds c := by
        simpa [Text.isDigitSign, isValue] using isSign
      obtain ⟨beyondAscii, -⟩ := Text.facts_of_digitSign holds
      rw [latin_of_digitSign isValue holds]
      constructor
      · simp only [isPadding, Bool.or_eq_false_iff, beq_eq_false_iff_ne,
          Bool.and_eq_false_iff, decide_eq_false_iff_not]
        constructor
        · rintro rfl
          revert beyondAscii
          decide
        · right
          intro atMost
          have : c.toNat ≤ '\r'.toNat := atMost
          exact absurd (beyondAscii.trans this) (by decide)
      · rintro rfl
        revert beyondAscii
        decide

/--
A text that begins with the sign of a digit does not write a negative number.
-/
theorem nonneg_of_isDigitSign
    {base : Base}
    {first : Char}
    {rest : List Char}
    {n : Int}
    (isSign : Text.isDigitSign first)
    (isRead : read? base (first :: rest) = some n) :
    0 ≤ n := by
  obtain ⟨notPadding, notMinus⟩ := latin_of_isDigitSign isSign
  have kept : ((first :: rest).map latin).dropWhile isPadding =
      (first :: rest).map latin := by
    simp [notPadding]
  have isPrefix :
      trim ((first :: rest).map latin) <+: (first :: rest).map latin := by
    rw [trim, kept, ← List.reverse_suffix, List.reverse_reverse]
    exact List.dropWhile_suffix _
  refine nonneg_of_signed? (fun startsWithMinus => notMinus ?_) isRead
  obtain ⟨behind, startsWith⟩ := List.head?_eq_some_iff.mp startsWithMinus
  rw [startsWith, List.map_cons, List.cons_prefix_cons] at isPrefix
  exact isPrefix.1.symm

/-- A digit in a base of at most sixteen is an ASCII character. -/
theorem toNat_lt_of_digitIn?
    {base value : Nat}
    {c : Char}
    (isDigit : digitIn? base c = some value) :
    c.toNat < 128 := by
  have areAscii : ∀ c ∈ keyChars, c.toNat < 128 :=
    List.forall_iff_forall_mem.mp (by decide +kernel)
  obtain ⟨isValue, -⟩ := Option.filter_eq_some_iff.mp isDigit
  exact areAscii c (mem_keyChars_of_hexValue? isValue)

/-- Later digits are read from ASCII characters only. -/
theorem toNat_lt_of_laterDigits?
    {base : Nat}
    {s : List Char}
    {values : List Nat}
    (areRead : laterDigits? base s = some values) :
    ∀ c ∈ s, c.toNat < 128 := by
  induction s using laterDigits?.induct generalizing values with
  | case1 =>
      exact List.forall_mem_nil _
  | case2 c rest inductionHypothesis =>
      simp only [laterDigits?, Option.bind_eq_bind, Option.bind_eq_some_iff]
        at areRead
      obtain ⟨value, isDigit, later, areLater, -⟩ := areRead
      simp only [List.forall_mem_cons]
      exact
        ⟨by decide, toNat_lt_of_digitIn? isDigit, inductionHypothesis areLater⟩
  | case3 c rest notUnderscore inductionHypothesis =>
      rw [laterDigits?] at areRead
      · simp only [Option.bind_eq_bind, Option.bind_eq_some_iff] at areRead
        obtain ⟨value, isDigit, later, areLater, -⟩ := areRead
        exact List.forall_mem_cons.mpr
          ⟨toNat_lt_of_digitIn? isDigit, inductionHypothesis areLater⟩
      · exact notUnderscore

/-- A decimal number is read from ASCII characters only. -/
theorem toNat_lt_of_decimal?
    {s : List Char}
    {n : Nat}
    (isRead : decimal? s = some n) :
    ∀ c ∈ s, c.toNat < 128 := by
  simp only [decimal?, Option.bind_eq_bind, Option.bind_eq_some_iff] at isRead
  obtain ⟨values, areRead, -⟩ := isRead
  cases s with
  | nil =>
      exact List.forall_mem_nil _
  | cons first rest =>
      simp only [digits?, Option.bind_eq_bind, Option.bind_eq_some_iff]
        at areRead
      obtain ⟨value, isDigit, later, areLater, -⟩ := areRead
      exact List.forall_mem_cons.mpr
        ⟨toNat_lt_of_digitIn? isDigit, toNat_lt_of_laterDigits? areLater⟩

/-- A decimal integer is read from ASCII characters only. -/
theorem toNat_lt_of_signed?
    {s : List Char}
    {n : Int}
    (isRead : signed? .ten s = some n) :
    ∀ c ∈ s, c.toNat < 128 := by
  unfold signed? at isRead
  split at isRead
  all_goals
    simp only [Option.map_eq_some_iff, Option.bind_eq_bind,
      Option.bind_eq_some_iff, Option.pure_def, Option.some.injEq] at isRead
    obtain ⟨_, ⟨magnitude, isNumber, rfl⟩, -⟩ := isRead
    have areAscii := toNat_lt_of_decimal? isNumber
  · exact List.forall_mem_cons.mpr ⟨by decide, areAscii⟩
  · exact List.forall_mem_cons.mpr ⟨by decide, areAscii⟩
  · exact areAscii

/--
A decimal numeral has no characters that are not read as ASCII characters.
-/
theorem toNat_lt_of_read?
    {s : List Char}
    {n : Int}
    (isRead : read? .ten s = some n) :
    ∀ c ∈ s, (latin c).toNat < 128 := by
  intro c isIn
  obtain ⟨before, after, areAround, beforePadding, afterPadding⟩ :=
    (stripped_dropEnds isPadding (s.map latin)).around
  have isAscii
      {c : Char}
      (isPadded : isPadding c) :
      c.toNat < 128 := by
    simp only [isPadding, Bool.or_eq_true, beq_iff_eq, Bool.and_eq_true,
      decide_eq_true_eq] at isPadded
    rcases isPadded with rfl | ⟨-, atMost⟩
    · decide
    · exact lt_of_le_of_lt (show c.toNat ≤ '\r'.toNat from atMost) (by decide)
  have isLatin : latin c ∈ s.map latin :=
    List.mem_map_of_mem isIn
  rw [areAround, List.mem_append, List.mem_append] at isLatin
  rcases isLatin with (isBefore | isInner) | isAfter
  · exact isAscii (beforePadding _ isBefore)
  · exact toNat_lt_of_signed? isRead _ isInner
  · exact isAscii (afterPadding _ isAfter)

/-- Latin digits that are not too many are read as their number. -/
theorem Writes.read?_ten
    {digits : List Char}
    {n : Nat}
    (writes : Writes 10 digits n)
    (short : digits.length ≤ maxDecimalDigits) :
    read? .ten digits = some (n : Int) :=
  read?_of_signed? (WritesInt.decimal .none writes short).facts
    (signed?_append .none (writes.not_mem (by decide) rfl)
      (writes.not_mem (by decide) rfl) (writes.unsigned?_ten short))

/-- Hex digits behind a mark are read as their number. -/
theorem Writes.read?_sixteen
    {mark : Char}
    {digits : List Char}
    {n : Nat}
    (isMark : mark = 'x' ∨ mark = 'X')
    (writes : Writes 16 digits n) :
    read? .sixteen ('0' :: mark :: digits) = some (n : Int) := by
  obtain ⟨noMinus, noPlus⟩ := writes.not_mem_marked isMark
  exact read?_of_signed? (WritesInt.hex .none (by decide) isMark writes).facts
    (signed?_append .none noMinus noPlus (writes.unsigned?_sixteen isMark))

/-- Digits of any scripts are Latin ones once they are read. -/
theorem writes_map_latin
    {digits : List Char}
    {values : List Nat}
    (notEmpty : digits ≠ [])
    (areDigits :
      List.Forall₂
        (fun c value => Text.digitValue? c = some value) digits values) :
    Writes 10 (digits.map latin) (Nat.ofDigits 10 values.reverse) := by
  have areLower :
      ∀ value < 10, (Nat.digitChar value).toLower = Nat.digitChar value := by
    decide
  refine .digits (by simpa using notEmpty) ?_
  rw [List.forall₂_map_left_iff]
  refine areDigits.imp fun c value isValue => ?_
  have isSmall := Text.lt_ten_of_digitValue? isValue
  exact ⟨by simp only [latin, isValue]; exact areLower value isSmall, isSmall⟩

/-- Digits of any scripts that are not too many are read as their number. -/
theorem read?_of_digitValues
    {digits : List Char}
    {values : List Nat}
    (notEmpty : digits ≠ [])
    (areDigits :
      List.Forall₂
        (fun c value => Text.digitValue? c = some value) digits values)
    (short : digits.length ≤ maxDecimalDigits) :
    read? .ten digits =
      some ((Nat.ofDigits 10 values.reverse : Nat) : Int) := by
  have writes := writes_map_latin notEmpty areDigits
  have areLatin : ∀ c ∈ digits.map latin, latin c = c := by
    intro c isIn
    obtain ⟨-, -, -, isLatin, -⟩ :=
      keyChars_facts c (writes.mem_keyChars (by decide) c isIn)
    exact isLatin
  have stayLatin : (digits.map latin).map latin = digits.map latin :=
    (List.map_congr_left areLatin).trans (List.map_id _)
  have isRead := writes.read?_ten (by rwa [List.length_map])
  rwa [read?, stayLatin] at isRead

end Numeral

end EvmStorage
