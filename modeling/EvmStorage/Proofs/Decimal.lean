import EvmStorage.Proofs.ArrayLength
import Mathlib.Algebra.Ring.Nat
import Mathlib.Data.List.Forall2
import Mathlib.Data.List.Induction

namespace EvmStorage

/-!
# Numbers in labels

The decimal digits of a number, as they are written without zeros in front,
are read back as the number.  So a label that is made of a kind and a width
tells them, and one that ends in a length in brackets tells the length.
Digits of any scripts write a number as long as they are not too many.
-/

/-- An integer can be written if it has few enough digits. -/
theorem Value.writableBound_eq :
    writableBound = 10 ^ Numeral.maxDecimalDigits := by
  unfold writableBound
  generalize Numeral.maxDecimalDigits = digits
  rfl

namespace Numeral

/-- A digit behind others counts once, and the others ten times. -/
theorem ofDigits_concat
    (base digit : Nat)
    (digits : List Nat) :
    ofDigits base (digits ++ [digit]) =
      ofDigits base digits * base + digit := by
  simp [ofDigits]

/--
Decimal digits write a number below the power of ten that belongs to their
number.
-/
theorem ofDigits_lt
    {digits : List Nat}
    (areSmall : ∀ digit ∈ digits, digit < 10) :
    ofDigits 10 digits < 10 ^ digits.length := by
  induction digits using List.reverseRecOn with
  | nil =>
      decide
  | append_singleton digits digit inductionHypothesis =>
      have isSmall := areSmall digit (by simp)
      have below := inductionHypothesis fun other isIn =>
        areSmall other (by simp [isIn])
      rw [ofDigits_concat, List.length_append, List.length_singleton, pow_succ]
      omega

/-- The digits of a number in a base have values that make up the number. -/
theorem exists_values_of_toDigits
    {base : Nat}
    (isBase : 1 < base)
    (n : Nat) :
    ∃ values,
      Nat.toDigits base n = values.map Nat.digitChar ∧
        values ≠ [] ∧
        (∀ value ∈ values, value < base) ∧
        ofDigits base values = n := by
  induction n using Nat.strong_induction_on with
  | _ n inductionHypothesis =>
      by_cases small : n < base
      · refine ⟨[n],
          Nat.toDigits_of_lt_base small, by simp, by simpa using small, ?_⟩
        simp [ofDigits]
      · have large : base ≤ n := not_lt.mp small
        obtain ⟨values, areDigits, _, areSmall, isQuotient⟩ :=
          inductionHypothesis (n / base) (Nat.div_lt_self (by omega) isBase)
        refine ⟨values ++ [n % base], ?_, by simp, ?_, ?_⟩
        · rw [Nat.toDigits_of_base_le isBase large, areDigits]
          simp
        · intro value isIn
          rcases List.mem_append.mp isIn with inQuotient | isLast
          · exact areSmall value inQuotient
          · rw [List.mem_singleton.mp isLast]
            exact Nat.mod_lt n (by omega)
        · rw [ofDigits_concat, isQuotient, Nat.mul_comm]
          exact Nat.div_add_mod n base

/-- The facts about the ten digits that reading a numeral rests on. -/
private theorem digitChar_facts :
    ∀ value < 10,
      latin (Nat.digitChar value) = Nat.digitChar value ∧
        isPadding (Nat.digitChar value) = false ∧
        digitIn? 10 (Nat.digitChar value) = some value ∧
        Label.isDigit (Nat.digitChar value) = true ∧
        Nat.digitChar value ∉ ['-', '+', '_', '\n', '[', ']'] := by
  decide +kernel

section Reading

variable {values : List Nat}

/-- Digits of a base are read one after the other. -/
theorem laterDigits?_eq_some
    {base : Nat}
    {s : List Char}
    (areDigits :
      List.Forall₂ (fun c value => digitIn? base c = some value) s values) :
    laterDigits? base s = some values := by
  induction areDigits with
  | nil =>
      rfl
  | @cons c value rest _ isDigit _ inductionHypothesis =>
      have noUnderscore : digitIn? base '_' = none :=
        rfl
      rw [laterDigits?]
      · simp [isDigit, inductionHypothesis]
      · rintro _ _ rfl
        cases noUnderscore.symm.trans isDigit

/-- The digits of a text are read, if there is one. -/
theorem digits?_eq_some
    {base : Nat}
    {s : List Char}
    (notEmpty : s ≠ [])
    (areDigits :
      List.Forall₂ (fun c value => digitIn? base c = some value) s values) :
    digits? base s = some values := by
  cases areDigits with
  | nil =>
      exact absurd rfl notEmpty
  | cons isDigit restDigits =>
      simp [digits?, isDigit, laterDigits?_eq_some restDigits]

private theorem digits?_map_digitChar
    (notEmpty : values ≠ [])
    (areSmall : ∀ value ∈ values, value < 10) :
    digits? 10 (values.map Nat.digitChar) = some values := by
  apply digits?_eq_some (by simpa using notEmpty)
  rw [List.forall₂_map_left_iff, List.forall₂_same]
  intro value isIn
  exact (digitChar_facts value (areSmall value isIn)).2.2.1

private theorem map_latin_digitChar
    (areSmall : ∀ value ∈ values, value < 10) :
    (values.map Nat.digitChar).map latin = values.map Nat.digitChar := by
  rw [List.map_map]
  apply List.map_congr_left
  intro value isIn
  exact (digitChar_facts value (areSmall value isIn)).1

private theorem dropWhile_isPadding_digitChar
    (areSmall : ∀ value ∈ values, value < 10) :
    (values.map Nat.digitChar).dropWhile isPadding =
      values.map Nat.digitChar := by
  cases values with
  | nil =>
      rfl
  | cons value rest =>
      have isSmall := areSmall value List.mem_cons_self
      simp [(digitChar_facts value isSmall).2.1]

private theorem trim_map_digitChar
    (areSmall : ∀ value ∈ values, value < 10) :
    trim (values.map Nat.digitChar) = values.map Nat.digitChar := by
  have reverseSmall : ∀ value ∈ values.reverse, value < 10 := by
    simpa using areSmall
  rw [trim, dropWhile_isPadding_digitChar areSmall, ← List.map_reverse,
    dropWhile_isPadding_digitChar reverseSmall, ← List.map_reverse,
    List.reverse_reverse]

private theorem signed?_map_digitChar
    {base : Base}
    (areSmall : ∀ value ∈ values, value < 10) :
    signed? base (values.map Nat.digitChar) =
      (unsigned? base (values.map Nat.digitChar)).map fun n => (n : Int) := by
  cases values with
  | nil =>
      rfl
  | cons value rest =>
      obtain ⟨_, _, _, _, notMark⟩ :=
        digitChar_facts value (areSmall value List.mem_cons_self)
      rw [List.map_cons, signed?]
      · intro _ isMinus
        exact notMark (by simp [(List.cons.inj isMinus).1])
      · intro _ isPlus
        exact notMark (by simp [(List.cons.inj isPlus).1])

end Reading

/-- Decimal digits make up their number, if they are not too many. -/
theorem decimal?_toDigits
    {n : Nat}
    (short : n < 10 ^ maxDecimalDigits) :
    decimal? (Nat.toDigits 10 n) = some n := by
  obtain ⟨values, areDigits, notEmpty, areSmall, isNumber⟩ :=
    exists_values_of_toDigits (by decide : 1 < 10) n
  have fewDigits : values.length ≤ maxDecimalDigits := by
    have bounded :=
      (Nat.length_toDigits_le_iff (by decide : 1 < 10)
        (by decide : 0 < maxDecimalDigits)).mpr short
    rwa [areDigits, List.length_map] at bounded
  simp [areDigits, decimal?, digits?_map_digitChar notEmpty areSmall, fewDigits,
    isNumber]

/-- A number is read from its decimal digits, if they are not too many. -/
theorem read?_toDigits
    {n : Nat}
    (short : n < 10 ^ maxDecimalDigits) :
    read? .ten (Nat.toDigits 10 n) = some (n : Int) := by
  have isNumber := decimal?_toDigits short
  obtain ⟨values, areDigits, _, areSmall, _⟩ :=
    exists_values_of_toDigits (by decide : 1 < 10) n
  rw [areDigits] at isNumber
  rw [areDigits, read?, map_latin_digitChar areSmall,
    trim_map_digitChar areSmall, signed?_map_digitChar areSmall]
  simp [unsigned?, isNumber]

/-- A number with more decimal digits than a numeral may have is not read. -/
theorem read?_toDigits_of_le
    {n : Nat}
    (long : 10 ^ maxDecimalDigits ≤ n) :
    read? .ten (Nat.toDigits 10 n) = none := by
  obtain ⟨values, areDigits, notEmpty, areSmall, _⟩ :=
    exists_values_of_toDigits (by decide : 1 < 10) n
  have manyDigits : ¬ values.length ≤ maxDecimalDigits := by
    have bounded :=
      (Nat.length_toDigits_le_iff (b := 10) (n := n) (by decide)
        (by decide : 0 < maxDecimalDigits)).not.mpr (not_lt.mpr long)
    rwa [areDigits, List.length_map] at bounded
  rw [areDigits, read?, map_latin_digitChar areSmall,
    trim_map_digitChar areSmall, signed?_map_digitChar areSmall]
  simp [unsigned?, decimal?, digits?_map_digitChar notEmpty areSmall,
    manyDigits]

/--
No zero stands in front of the decimal digits of a number, unless it is zero.
-/
theorem head?_toDigits
    {n : Nat}
    (positive : 0 < n) :
    (Nat.toDigits 10 n).head? ≠ some '0' := by
  induction n using Nat.strong_induction_on with
  | _ n inductionHypothesis =>
      by_cases small : n < 10
      · have notZero : ∀ value < 10, 0 < value → Nat.digitChar value ≠ '0' := by
          decide
        rw [Nat.toDigits_of_lt_base small, List.head?_cons]
        exact fun isZero => notZero n small positive (Option.some.inj isZero)
      · have large : 10 ≤ n := not_lt.mp small
        rw [Nat.toDigits_of_base_le (by decide) large,
          List.head?_append_of_ne_nil _ Nat.toDigits_ne_nil]
        exact inductionHypothesis (n / 10) (by omega) (by omega)

/-- Decimal digits make up their number where a mark may tell the base. -/
theorem marked?_toDigits
    {n : Nat}
    (short : n < 10 ^ maxDecimalDigits) :
    marked? (Nat.toDigits 10 n) = some n := by
  rw [← decimal?_toDigits short]
  rcases Nat.eq_zero_or_pos n with rfl | positive
  · rfl
  · have noZero := head?_toDigits positive
    unfold marked?
    split
    · next isDigits =>
        rw [isDigits] at noZero
        exact absurd rfl noZero
    · rfl

/-- A number is read from its decimal digits where a mark may tell the base. -/
theorem read?_marked_toDigits
    {n : Nat}
    (short : n < 10 ^ maxDecimalDigits) :
    read? .marked (Nat.toDigits 10 n) = some (n : Int) := by
  have isNumber := marked?_toDigits short
  obtain ⟨values, areDigits, _, areSmall, _⟩ :=
    exists_values_of_toDigits (by decide : 1 < 10) n
  rw [areDigits] at isNumber
  rw [areDigits, read?, map_latin_digitChar areSmall,
    trim_map_digitChar areSmall, signed?_map_digitChar areSmall]
  simp [unsigned?, isNumber]

end Numeral

namespace Label

theorem isDigit_of_mem_toDigits
    {n : Nat}
    {c : Char}
    (isIn : c ∈ Nat.toDigits 10 n) :
    isDigit c ∧ c ∉ ['-', '+', '_', '\n', '[', ']'] := by
  obtain ⟨values, areDigits, _, areSmall, _⟩ :=
    Numeral.exists_values_of_toDigits (by decide : 1 < 10) n
  rw [areDigits, List.mem_map] at isIn
  obtain ⟨value, isValue, rfl⟩ := isIn
  exact (Numeral.digitChar_facts value (areSmall value isValue)).2.2.2

theorem dropLineEnd_concat
    {c : Char}
    (s : List Char)
    (noLineEnd : c ≠ '\n') :
    dropLineEnd (s ++ [c]) = s ++ [c] := by
  simp [dropLineEnd, noLineEnd]

/--
A text that ends with decimal digits in brackets has them as its last
dimension.
-/
theorem lastDimension?_toDigits
    (front : List Char)
    (n : Nat) :
    lastDimension? (front ++ '[' :: Nat.toDigits 10 n ++ [']']) =
      some (Nat.toDigits 10 n) := by
  have areDigits : ∀ c ∈ (Nat.toDigits 10 n).reverse, isDigit c := by
    intro c isIn
    exact (isDigit_of_mem_toDigits (List.mem_reverse.mp isIn)).1
  have notDigit : isDigit '[' = false := by
    decide +kernel
  have reversed :
      (dropLineEnd (front ++ '[' :: Nat.toDigits 10 n ++ [']'])).reverse =
        ']' :: ((Nat.toDigits 10 n).reverse ++ '[' :: front.reverse) := by
    rw [dropLineEnd_concat _ (by decide)]
    simp
  simp only [lastDimension?, reversed, List.dropWhile_append_of_pos areDigits,
    List.takeWhile_append_of_pos areDigits]
  simp [notDigit]

/-- A text that ends with decimal digits has no line end behind them. -/
theorem dropLineEnd_toDigits
    (front : List Char)
    (n : Nat) :
    dropLineEnd (front ++ Nat.toDigits 10 n) = front ++ Nat.toDigits 10 n := by
  obtain ⟨digits, last, areDigits⟩ :
      ∃ digits last, Nat.toDigits 10 n = digits ++ [last] :=
    ⟨_, _, (List.dropLast_concat_getLast Nat.toDigits_ne_nil).symm⟩
  have notMark :=
    (isDigit_of_mem_toDigits (n := n) (by simp [areDigits] : last ∈ _)).2
  rw [areDigits, ← List.append_assoc]
  apply dropLineEnd_concat
  intro isLineEnd
  exact notMark (by simp [isLineEnd])

/-- A label of a kind and a width is read as the two. -/
theorem parts?_toDigits
    (isUnsigned : Bool)
    (kind : DataKind)
    (n : Nat) :
    parts? ((if isUnsigned then "u" else "") ++ kind.name ++ toString n) =
      some
        { isUnsigned, kind, size := Nat.toDigits 10 n, dimension := none } := by
  have areDigits : ∀ c ∈ Nat.toDigits 10 n, isDigit c := by
    intro c isIn
    exact (isDigit_of_mem_toDigits isIn).1
  have allTaken : (Nat.toDigits 10 n).takeWhile isDigit = Nat.toDigits 10 n :=
    List.takeWhile_eq_self_iff.mpr areDigits
  have notEmpty : (Nat.toDigits 10 n).isEmpty = false := by
    simp [Nat.toDigits_ne_nil]
  have noneLeft : (Nat.toDigits 10 n).dropWhile isDigit = [] :=
    List.dropWhile_eq_nil_iff.mpr areDigits
  unfold parts?
  simp only [String.toList_append, Nat.toString_eq_repr, Nat.toList_repr,
    dropLineEnd_toDigits]
  cases isUnsigned <;> cases kind <;>
    simp [-List.isEmpty_iff, DataKind.name, kind?, allTaken, notEmpty, noneLeft,
      dimensions?]

/-- Digits of any scripts are read as Latin ones. -/
theorem exists_values_of_isDigit
    {digits : List Char}
    (areDigits : ∀ c ∈ digits, isDigit c) :
    ∃ values : List Nat,
      digits.map Numeral.latin = values.map Nat.digitChar ∧
        (∀ value ∈ values, value < 10) ∧
        values.length = digits.length := by
  induction digits with
  | nil =>
      exact ⟨[], rfl, by simp, rfl⟩
  | cons c rest inductionHypothesis =>
      obtain ⟨isDigit, restDigits⟩ := List.forall_mem_cons.mp areDigits
      obtain ⟨value, isValue⟩ := Option.isSome_iff_exists.mp isDigit
      obtain ⟨values, areLatin, areSmall, sameLength⟩ :=
        inductionHypothesis restDigits
      have isLatin : Numeral.latin c = Nat.digitChar value := by
        simp only [Numeral.latin, isValue]
      exact ⟨value ::
        values, by rw [List.map_cons, List.map_cons, isLatin, areLatin],
        List.forall_mem_cons.mpr ⟨Text.lt_ten_of_digitValue? isValue, areSmall⟩,
        congrArg (· + 1) sameLength⟩

/-- Digits of any scripts write a number, if they are not too many. -/
theorem exists_numberOf
    {digits : List Char}
    (notEmpty : digits ≠ [])
    (areDigits : ∀ c ∈ digits, isDigit c)
    (short : digits.length ≤ Numeral.maxDecimalDigits) :
    ∃ n : Nat, numberOf digits = .ok (n : Int) ∧ n < 10 ^ digits.length := by
  obtain ⟨values, areLatin, areSmall, sameLength⟩ :=
    exists_values_of_isDigit areDigits
  have valuesNotEmpty : values ≠ [] := by
    rintro rfl
    exact notEmpty (List.length_eq_zero_iff.mp sameLength.symm)
  have isNumber :
      Numeral.read? .ten digits = some (Numeral.ofDigits 10 values : Int) := by
    rw [Numeral.read?, areLatin, Numeral.trim_map_digitChar areSmall,
      Numeral.signed?_map_digitChar areSmall]
    simp [Numeral.unsigned?, Numeral.decimal?,
      Numeral.digits?_map_digitChar valuesNotEmpty areSmall, sameLength, short]
  refine ⟨Numeral.ofDigits 10 values, by rw [numberOf, isNumber], ?_⟩
  rw [← sameLength]
  exact Numeral.ofDigits_lt areSmall

/-- The dimensions that a text consists of hold digits. -/
theorem isDigit_of_mem_dimensions?
    {opened last : Option (List Char)}
    {s digits : List Char}
    (found : dimensions? opened last s = some (some digits))
    (openedDigits : ∀ taken ∈ opened, ∀ c ∈ taken, isDigit c)
    (lastDigits : ∀ earlier ∈ last, ∀ c ∈ earlier, isDigit c) :
    ∀ c ∈ digits, isDigit c := by
  fun_induction dimensions? opened last s with
  | case1 last =>
      cases found
      exact lastDigits digits rfl
  | case2 last rest inductionHypothesis =>
      refine inductionHypothesis found ?_ lastDigits
      rintro _ ⟨⟩
      exact nofun
  | case3 | case4 =>
      cases found
  | case5 taken last rest inductionHypothesis =>
      refine inductionHypothesis found nofun ?_
      rintro _ ⟨⟩ c isIn
      exact openedDigits taken rfl c (List.mem_reverse.mp isIn)
  | case6 taken last c rest notClosing isDigit inductionHypothesis =>
      refine inductionHypothesis found ?_ lastDigits
      rintro _ ⟨⟩
      exact List.forall_mem_cons.mpr ⟨isDigit, openedDigits taken rfl⟩
  | case7 =>
      cases found

/-- The numbers in a label consist of digits, and its size has at least one. -/
theorem areDigits_of_parts?
    {label : String}
    {parts : Parts}
    (found : parts? label = some parts) :
    parts.size ≠ [] ∧
      (∀ c ∈ parts.size, isDigit c) ∧
      ∀ digits ∈ parts.dimension, ∀ c ∈ digits, isDigit c := by
  unfold parts? at found
  simp only [Option.bind_eq_bind, Option.bind_eq_some_iff] at found
  obtain ⟨_, _, isParts⟩ := found
  split at isParts
  · cases isParts
  · next notEmpty =>
      rw [Option.bind_eq_some_iff] at isParts
      obtain ⟨dimension, isDimension, isParts⟩ := isParts
      obtain rfl := Option.some.inj isParts
      refine ⟨fun isEmpty => notEmpty (List.isEmpty_iff.mpr isEmpty),
        fun _ isIn => List.mem_takeWhile_imp isIn, ?_⟩
      intro digits isLast
      cases isLast
      exact isDigit_of_mem_dimensions? isDimension nofun nofun

/-- Decimal digits write their number, if they are not too many. -/
theorem numberOf_toDigits
    {n : Nat}
    (short : n < 10 ^ Numeral.maxDecimalDigits) :
    numberOf (Nat.toDigits 10 n) = .ok (n : Int) := by
  simp [numberOf, Numeral.read?_toDigits short]

/-- Too many decimal digits are not read as a number. -/
theorem numberOf_toDigits_of_le
    {n : Nat}
    (long : 10 ^ Numeral.maxDecimalDigits ≤ n) :
    numberOf (Nat.toDigits 10 n) = .error (.misuse .numeralTooLong) := by
  simp [numberOf, Numeral.read?_toDigits_of_le long]

end Label

namespace TypeEntry

variable {type : TypeEntry} {length other : Nat}

/-- Whether the label of a type ends in a length in brackets. -/
def HasLength
    (type : TypeEntry)
    (length : Nat) :
    Prop :=
  ∃ front, type.label = .text (front ++ "[" ++ toString length ++ "]")

private theorem lastDimension?_of_label
    (front : String)
    (length : Nat) :
    Label.lastDimension? (front ++ "[" ++ toString length ++ "]").toList =
      some (Nat.toDigits 10 length) := by
  rw [← Label.lastDimension?_toDigits front.toList length]
  simp

/-- A label ends in one length only. -/
theorem HasLength.unique
    (hasLength : type.HasLength length)
    (hasOther : type.HasLength other) :
    length = other := by
  obtain ⟨front, isLabel⟩ := hasLength
  obtain ⟨otherFront, isOtherLabel⟩ := hasOther
  rw [isLabel, Value.text.injEq] at isOtherLabel
  have sameDigits := lastDimension?_of_label front length
  rw [isOtherLabel, lastDimension?_of_label, Option.some.injEq] at sameDigits
  have sameNumber :=
    congrArg (fun digits => Nat.ofDigitChars 10 digits 0) sameDigits
  simpa using sameNumber.symm

/-- The length at the end of a label is the length of the array. -/
theorem fixedLength_of_hasLength
    (isFixedArray : type.isFixedArray)
    (hasLength : type.HasLength length)
    (short : length < 10 ^ Numeral.maxDecimalDigits) :
    type.fixedLength = .ok (length : Int) := by
  obtain ⟨front, isLabel⟩ := hasLength
  have isDimension := lastDimension?_of_label front length
  have isNumber := Label.numberOf_toDigits short
  simp only [fixedLength, isLabel, isFixedArray, isDimension]
  cases areDigits : Nat.toDigits 10 length with
  | nil =>
      exact absurd areDigits Nat.toDigits_ne_nil
  | cons digit digits =>
      rw [areDigits] at isNumber
      exact isNumber

end TypeEntry

end EvmStorage
