import EvmStorage.Path
import EvmStorage.Proofs.Decimal
import Mathlib.Data.Nat.Digits.Defs

namespace EvmStorage

/-!
# What numerals write

An integer may be written in decimal digits with a sign in front, or in hex
digits of either letter case behind a mark; zeros may stand in front of the
digits and blanks around the whole.  Each of these texts is read as the number
that its digits write, and the text of an integer is one of them.
-/

/--
Nothing is dropped from a list whose first item does not belong to what is
dropped.
-/
theorem dropWhile_of_head?
    {p : α → Bool}
    {s : List α}
    (first : ∀ c ∈ s.head?, p c = false) :
    s.dropWhile p = s := by
  cases s with
  | nil =>
      rfl
  | cons c rest =>
      rw [List.dropWhile_cons_of_neg (by simp [first c rfl])]

/--
A list is what is left of another one without the items of a class at its two
ends.
-/
structure Stripped
    (p : α → Bool)
    (inner s : List α) :
    Prop where
  around :
    ∃ before after,
      s = before ++ inner ++ after ∧ (∀ c ∈ before, p c) ∧ ∀ c ∈ after, p c
  first : ∀ c ∈ inner.head?, p c = false
  last : ∀ c ∈ inner.getLast?, p c = false

/--
Dropping the items of a class at both ends leaves what is left without them.
-/
theorem Stripped.dropEnds_eq
    {p : α → Bool}
    {inner s : List α}
    (stripped : Stripped p inner s) :
    ((s.dropWhile p).reverse.dropWhile p).reverse = inner := by
  obtain ⟨before, after, rfl, beforeDropped, afterDropped⟩ := stripped.around
  have lastDropped : ∀ c ∈ after.reverse, p c := by
    simpa using afterDropped
  rw [List.append_assoc, List.dropWhile_append_of_pos beforeDropped]
  cases isInner : inner with
  | nil =>
      rw [List.nil_append, ← List.append_nil after,
        List.dropWhile_append_of_pos afterDropped]
      rfl
  | cons c later =>
      have firstKept : ∀ c ∈ (inner ++ after).head?, p c = false := by
        simpa [isInner] using stripped.first
      have lastKept : ∀ c ∈ inner.reverse.head?, p c = false := by
        simpa using stripped.last
      rw [← isInner, dropWhile_of_head? firstKept, List.reverse_append,
        List.dropWhile_append_of_pos lastDropped, dropWhile_of_head? lastKept,
        List.reverse_reverse]

/-- What is left of a list has a first item that is kept. -/
theorem kept_of_head?_dropWhile
    (p : α → Bool)
    (t : List α) :
    ∀ c ∈ (t.dropWhile p).head?, p c = false := by
  intro c isFirst
  have kept := List.head?_dropWhile_not p t
  rw [Option.mem_def.mp isFirst] at kept
  simpa using kept

/--
Whatever dropping the items of a class at both ends leaves is left without
them.
-/
theorem stripped_dropEnds
    (p : α → Bool)
    (t : List α) :
    Stripped p ((t.dropWhile p).reverse.dropWhile p).reverse t where
  around := by
    refine ⟨t.takeWhile p, ((t.dropWhile p).reverse.takeWhile p).reverse, ?_,
      fun c isIn => List.mem_takeWhile_imp isIn,
      fun c isIn => List.mem_takeWhile_imp (List.mem_reverse.mp isIn)⟩
    rw [List.append_assoc, ← List.reverse_append,
      List.takeWhile_append_dropWhile, List.reverse_reverse,
      List.takeWhile_append_dropWhile]
  first := by
    intro c isFirst
    have isPrefix :
        ((t.dropWhile p).reverse.dropWhile p).reverse <+: t.dropWhile p := by
      simpa using List.reverse_prefix.mpr
        (List.dropWhile_suffix p (l := (t.dropWhile p).reverse))
    obtain ⟨after, isAppend⟩ := isPrefix
    apply kept_of_head?_dropWhile p t
    rw [← isAppend, List.head?_append, Option.mem_def.mp isFirst]
    rfl
  last := by
    simpa using kept_of_head?_dropWhile p (t.dropWhile p).reverse

/--
Nothing is dropped from a list whose ends do not belong to what is dropped.
-/
theorem dropEnds_eq_self
    {p : α → Bool}
    {s : List α}
    (first : ∀ c ∈ s.head?, p c = false)
    (last : ∀ c ∈ s.getLast?, p c = false) :
    ((s.dropWhile p).reverse.dropWhile p).reverse = s :=
  Stripped.dropEnds_eq
    { around := ⟨[], [], by simp, by simp, by simp⟩
      first := first
      last := last }

/-- Nothing is dropped from a list that has nothing of what is dropped. -/
theorem dropEnds_of_forall
    {p : α → Bool}
    {s : List α}
    (kept : ∀ c ∈ s, p c = false) :
    ((s.dropWhile p).reverse.dropWhile p).reverse = s :=
  dropEnds_eq_self (fun c isFirst => kept c (List.mem_of_mem_head? isFirst))
    (fun c isLast => kept c (List.mem_of_mem_getLast? isLast))

namespace Text

/-- What stands between blanks is left of a text, if nothing in it is blank. -/
theorem strip_of_blanks
    {s before body after : List Char}
    (areAround : s = before ++ body ++ after)
    (beforeBlank : ∀ c ∈ before, isBlank c)
    (afterBlank : ∀ c ∈ after, isBlank c)
    (notBlank : ∀ c ∈ body, isBlank c = false) :
    strip s = body :=
  Stripped.dropEnds_eq
    { around := ⟨before, after, areAround, beforeBlank, afterBlank⟩
      first := fun c isFirst => notBlank c (List.mem_of_mem_head? isFirst)
      last := fun c isLast => notBlank c (List.mem_of_mem_getLast? isLast) }

/-- No blanks are left at the ends of a text. -/
theorem strip_strip (s : List Char) :
    strip (strip s) = strip s := by
  obtain ⟨-, first, last⟩ := stripped_dropEnds isBlank s
  exact dropEnds_eq_self first last

end Text

/-- The characters of integers and of hex digits behind their mark. -/
def keyChars : List Char :=
  "-0123456789abcdefABCDEFxX".toList

/--
Characters of integers and of hex digits are neither blanks nor quotes nor
brackets.
-/
theorem keyChars_facts :
    ∀ c ∈ keyChars,
      Text.isBlank c = false ∧ Path.isQuote c = false ∧
        Numeral.isPadding c = false ∧
        Numeral.latin c = c ∧ c ≠ ']' :=
  List.forall_iff_forall_mem.mp (by decide +kernel)

/-- A hex digit is a character of hex digits. -/
theorem mem_keyChars_of_hexValue?
    {c : Char}
    {value : Nat}
    (isValue : hexValue? c = some value) :
    c ∈ keyChars := by
  have checked :
      ∀ n < 128,
        (hexValue? (Char.ofNat n)).isSome → Char.ofNat n ∈ keyChars := by
    decide +kernel
  have atMost : c.toNat ≤ 'f'.toNat := by
    unfold hexValue? at isValue
    split at isValue
    · next isDigit =>
        exact le_trans (show c.toNat ≤ '9'.toNat from isDigit.2) (by decide)
    · split at isValue
      · next isLower =>
          exact isLower.2
      · split at isValue
        · next isUpper =>
            exact le_trans (show c.toNat ≤ 'F'.toNat from isUpper.2) (by decide)
        · cases isValue
  have ascii : c.toNat < 128 :=
    lt_of_le_of_lt atMost (by decide)
  have isChar : Char.ofNat c.toNat = c :=
    Char.ofNat_toNat c
  rw [← isChar]
  exact checked c.toNat ascii (by rw [isChar, isValue]; rfl)

/-- The letter case of a hex digit does not change its value. -/
theorem hexValue?_toLower (c : Char) :
    hexValue? c.toLower = hexValue? c := by
  have capitals :
      ∀ n < 91,
        hexValue? (Char.ofNat n).toLower = hexValue? (Char.ofNat n) := by
    decide +kernel
  by_cases isCapital : c.toNat < 91
  · rw [← Char.ofNat_toNat c]
    exact capitals c.toNat isCapital
  · have isLower : c.toLower = c := by
      unfold Char.toLower
      rw [dif_neg]
      rintro ⟨-, atMost⟩
      exact isCapital (Nat.lt_succ_of_le atMost)
    rw [isLower]

/-- A digit has its value as a hex digit. -/
theorem hexValue?_digitChar :
    ∀ value < 16, hexValue? (Nat.digitChar value) = some value := by
  decide +kernel

/-- The mark of hex digits is dropped from in front of them. -/
theorem dropHexMark_mark
    {mark : Char}
    (isMark : mark = 'x' ∨ mark = 'X')
    (s : List Char) :
    dropHexMark ('0' :: mark :: s) = s := by
  rcases isMark with rfl | rfl
  · rfl
  · rfl

/-- A mark is all that may be dropped. -/
theorem dropHexMark_eq_or (digits : List Char) :
    dropHexMark digits = digits ∨
      ∃ mark,
        (mark = 'x' ∨ mark = 'X') ∧
          digits = '0' :: mark :: dropHexMark digits := by
  unfold dropHexMark
  split
  · exact .inr ⟨'x', .inl rfl, rfl⟩
  · exact .inr ⟨'X', .inr rfl, rfl⟩
  · exact .inl rfl

namespace Numeral

/--
Whether a character, in either letter case, is the digit of a value in a base.
-/
structure IsDigit
    (base : Nat)
    (c : Char)
    (value : Nat) :
    Prop where
  isChar : c.toLower = Nat.digitChar value
  isSmall : value < base

instance (base : Nat) (c : Char) (value : Nat) :
    Decidable (IsDigit base c value) :=
  decidable_of_iff (c.toLower = Nat.digitChar value ∧ value < base)
    ⟨fun ⟨isChar, isSmall⟩ => ⟨isChar, isSmall⟩,
      fun ⟨isChar, isSmall⟩ => ⟨isChar, isSmall⟩⟩

/-- The numbers that digits of a base write, whose first digits may be zeros. -/
inductive Writes (base : Nat) : List Char → Nat → Prop where
  | digits
      {digits : List Char}
      {values : List Nat}
      (notEmpty : digits ≠ [])
      (areDigits : List.Forall₂ (IsDigit base) digits values) :
      Writes base digits (Nat.ofDigits base values.reverse)

/-- The sign that an integer may be written with. -/
inductive Sign where
  | none
  | plus
  | minus
  deriving DecidableEq, Repr

namespace Sign

/-- What is written for a sign. -/
def chars : Sign → List Char
  | .none => []
  | .plus => ['+']
  | .minus => ['-']

/-- The integer that a number behind a sign is. -/
def apply : Sign → Nat → Int
  | .none, n | .plus, n => n
  | .minus, n => -n

theorem mem_chars
    {sign : Sign}
    {c : Char}
    (isIn : c ∈ sign.chars) :
    c = '+' ∨ c = '-' := by
  cases sign with
  | none =>
      cases isIn
  | plus =>
      exact .inl (List.mem_singleton.mp isIn)
  | minus =>
      exact .inr (List.mem_singleton.mp isIn)

end Sign

/--
The integers that are written without blanks.

Hex digits stand behind a mark and cannot have a plus, and decimal digits must
not be too many.
-/
inductive WritesInt : List Char → Int → Prop where
  | decimal
      {digits : List Char}
      {n : Nat}
      (sign : Sign)
      (writes : Writes 10 digits n)
      (short : digits.length ≤ maxDecimalDigits) :
      WritesInt (sign.chars ++ digits) (sign.apply n)
  | hex
      {mark : Char}
      {digits : List Char}
      {n : Nat}
      (sign : Sign)
      (noPlus : sign ≠ .plus)
      (isMark : mark = 'x' ∨ mark = 'X')
      (writes : Writes 16 digits n) :
      WritesInt (sign.chars ++ '0' :: mark :: digits) (sign.apply n)

/-- Whether a text writes an integer, with blanks around it or not. -/
def Spells
    (text : String)
    (n : Int) :
    Prop :=
  ∃ before body after,
    text.toList = before ++ body ++ after ∧
      (∀ c ∈ before, Text.isBlank c) ∧
      (∀ c ∈ after, Text.isBlank c) ∧
      WritesInt body n

/-- Digits write the same number if they are read from either end. -/
theorem ofDigits_eq
    (base : Nat)
    (values : List Nat) :
    ofDigits base values = Nat.ofDigits base values.reverse := by
  induction values using List.reverseRecOn with
  | nil =>
      rfl
  | append_singleton values value inductionHypothesis =>
      rw [ofDigits_concat, List.reverse_append, List.reverse_singleton,
        List.singleton_append, Nat.ofDigits_cons, inductionHypothesis,
        Nat.mul_comm, Nat.add_comm]

/-- An integer is written with its sign, if it is negative, and its digits. -/
theorem toList_toString (n : Int) :
    (toString n).toList =
      (if n < 0 then ['-'] else []) ++ Nat.toDigits 10 n.natAbs := by
  rw [Int.toString_eq_repr, Int.repr_eq_if]
  split
  · next nonneg =>
      have sameNumber : n.toNat = n.natAbs := by
        omega
      simp [not_lt.mpr nonneg, sameNumber]
  · next negative =>
      have sameNumber : (-n).toNat = n.natAbs := by
        omega
      simp [not_le.mp negative, sameNumber]

section Digits

variable {base n : Nat} {c : Char} {value : Nat} {digits : List Char}

/-- A digit of a base of at most sixteen has its value as a hex digit. -/
theorem IsDigit.hexValue?_eq
    (isDigit : IsDigit base c value)
    (atMost : base ≤ 16) :
    hexValue? c = some value := by
  rw [← hexValue?_toLower, isDigit.isChar]
  exact hexValue?_digitChar value (isDigit.isSmall.trans_le atMost)

/-- A character with a value as a hex digit is the digit of that value. -/
theorem isDigit_of_hexValue?
    (isValue : hexValue? c = some value) :
    IsDigit 16 c value := by
  have checked :
      ∀ c ∈ keyChars, (hexValue? c).all fun value =>
        decide (IsDigit 16 c value) :=
    List.forall_iff_forall_mem.mp (by decide +kernel)
  have isDigit := checked c (mem_keyChars_of_hexValue? isValue)
  rw [isValue, Option.all_some] at isDigit
  exact of_decide_eq_true isDigit

/-- The characters of digits have a value as hex digits. -/
theorem isSome_hexValue?_of_areDigits
    {values : List Nat}
    (areDigits : List.Forall₂ (IsDigit base) digits values)
    (atMost : base ≤ 16) :
    ∀ c ∈ digits, (hexValue? c).isSome := by
  refine ((List.forall₂_and_left _ _).mp
    (areDigits.imp fun c value isDigit => ⟨?_, isDigit⟩)).1
  rw [isDigit.hexValue?_eq atMost]
  rfl

/-- The digits of a number in a base write it. -/
theorem writes_toDigits
    (isBase : 1 < base)
    (atMost : base ≤ 16)
    (n : Nat) :
    Writes base (Nat.toDigits base n) n := by
  obtain ⟨values, areDigits, notEmpty, areSmall, isNumber⟩ :=
    exists_values_of_toDigits isBase n
  have noCase :
      ∀ value < 16, (Nat.digitChar value).toLower = Nat.digitChar value := by
    decide +kernel
  have writes :
      Writes base (values.map Nat.digitChar)
        (Nat.ofDigits base values.reverse) := by
    refine .digits (by simpa using notEmpty) ?_
    rw [List.forall₂_map_left_iff, List.forall₂_same]
    exact fun value isIn =>
      ⟨noCase value ((areSmall value isIn).trans_le atMost),
        areSmall value isIn⟩
  rwa [← areDigits, ← ofDigits_eq, isNumber] at writes

/-- A zero in front of digits changes nothing. -/
theorem Writes.zero_cons
    (writes : Writes base digits n)
    (isBase : 0 < base) :
    Writes base ('0' :: digits) n := by
  obtain ⟨notEmpty, areDigits⟩ := writes
  have isZero : IsDigit base '0' 0 :=
    ⟨by decide, isBase⟩
  have longer :=
    Writes.digits (List.cons_ne_nil '0' _) (List.Forall₂.cons isZero areDigits)
  simpa [Nat.ofDigits_append] using longer

/-- Zeros in front of digits change nothing. -/
theorem Writes.leftpad
    (writes : Writes base digits n)
    (isBase : 0 < base)
    (width : Nat) :
    Writes base (digits.leftpad width '0') n := by
  unfold List.leftpad
  generalize width - digits.length = zeros
  induction zeros with
  | zero =>
      exact writes
  | succ zeros inductionHypothesis =>
      exact inductionHypothesis.zero_cons isBase

/-- The characters of what writes a number are hex digits. -/
theorem Writes.isSome_hexValue?
    (writes : Writes base digits n)
    (atMost : base ≤ 16) :
    ∀ c ∈ digits, (hexValue? c).isSome := by
  obtain ⟨-, areDigits⟩ := writes
  exact isSome_hexValue?_of_areDigits areDigits atMost

/-- The values of the digits of a number are read, one for each digit. -/
theorem Writes.exists_values
    (writes : Writes base digits n)
    (atMost : base ≤ 16) :
    ∃ values,
      digits? base digits = some values ∧
        values.length = digits.length ∧
        ofDigits base values = n := by
  obtain ⟨notEmpty, areDigits⟩ := writes
  refine ⟨_, digits?_eq_some notEmpty (areDigits.imp fun c value isDigit => ?_),
    areDigits.length_eq.symm, ofDigits_eq base _⟩
  rw [digitIn?, isDigit.hexValue?_eq atMost, Option.filter_some, if_pos]
  exact decide_eq_true isDigit.isSmall

/-- Characters that are no hex digits do not stand among digits. -/
theorem Writes.not_mem
    (writes : Writes base digits n)
    (atMost : base ≤ 16)
    (noValue : hexValue? c = none) :
    c ∉ digits := by
  intro isIn
  have isSome := writes.isSome_hexValue? atMost c isIn
  rw [noValue] at isSome
  cases isSome

/-- A text without a sign is read as a number. -/
theorem signed?_of_not_mem
    {base : Base}
    {s : List Char}
    (noMinus : '-' ∉ s)
    (noPlus : '+' ∉ s) :
    signed? base s = (unsigned? base s).map fun n => (n : Int) := by
  unfold signed?
  split
  · exact absurd List.mem_cons_self noMinus
  · exact absurd List.mem_cons_self noPlus
  · rfl

/-- A number behind a sign is read as the integer that it is. -/
theorem signed?_append
    {base : Base}
    {s : List Char}
    (sign : Sign)
    (noMinus : '-' ∉ s)
    (noPlus : '+' ∉ s)
    (isNumber : unsigned? base s = some n) :
    signed? base (sign.chars ++ s) = some (sign.apply n) := by
  cases sign with
  | none =>
      rw [Sign.chars, List.nil_append, signed?_of_not_mem noMinus noPlus,
        isNumber]
      rfl
  | plus | minus =>
      simp only [Sign.chars, List.singleton_append, signed?, isNumber]
      rfl

/-- Decimal digits are read as their number, if they are not too many. -/
theorem Writes.unsigned?_ten
    (writes : Writes 10 digits n)
    (short : digits.length ≤ maxDecimalDigits) :
    unsigned? .ten digits = some n := by
  obtain ⟨values, areValues, sameLength, isNumber⟩ :=
    writes.exists_values (by decide)
  simp [unsigned?, decimal?, areValues, sameLength, short, isNumber]

/--
A text without the letter of the mark of hex digits does not begin with the
mark.
-/
theorem hasHexMark_of_not_mem
    {s : List Char}
    (noMark : 'x' ∉ s ∧ 'X' ∉ s) :
    hasHexMark s = false := by
  have kept : dropHexMark s = s := by
    unfold dropHexMark
    split
    · exact absurd (by simp) noMark.1
    · exact absurd (by simp) noMark.2
    · rfl
  simp [hasHexMark, kept]

/-- A text that begins with a mark is told by it. -/
theorem hasHexMark_mark
    {mark : Char}
    (isMark : mark = 'x' ∨ mark = 'X')
    (s : List Char) :
    hasHexMark ('0' :: mark :: s) := by
  rw [hasHexMark, dropHexMark_mark isMark, bne_iff_ne]
  intro same
  have sameLength := congrArg List.length same
  simp at sameLength
  omega

/-- Hex digits are read as their number behind their mark. -/
theorem Writes.afterMark?_sixteen
    (writes : Writes 16 digits n) :
    afterMark? 16 digits = some n := by
  obtain ⟨values, areValues, -, isNumber⟩ := writes.exists_values le_rfl
  have noUnderscore : dropUnderscore digits = digits := by
    unfold dropUnderscore
    split
    · exact absurd List.mem_cons_self (writes.not_mem le_rfl rfl)
    · rfl
  rw [afterMark?, noUnderscore, areValues, Option.map_some, isNumber]

/-- Hex digits behind a mark are read as their number. -/
theorem Writes.unsigned?_sixteen
    {mark : Char}
    (isMark : mark = 'x' ∨ mark = 'X')
    (writes : Writes 16 digits n) :
    unsigned? .sixteen ('0' :: mark :: digits) = some n := by
  have marked := bne_iff_ne.mp (hasHexMark_mark isMark digits)
  rw [unsigned?, hex?, if_neg marked, dropHexMark_mark isMark,
    writes.afterMark?_sixteen]

/--
Hex digits behind a mark are read as their number where the mark tells the
base.
-/
theorem Writes.unsigned?_marked
    {mark : Char}
    (isMark : mark = 'x' ∨ mark = 'X')
    (writes : Writes 16 digits n) :
    unsigned? .marked ('0' :: mark :: digits) = some n := by
  have isSixteen : baseOfMark? mark = some 16 := by
    rcases isMark with rfl | rfl <;> rfl
  rw [unsigned?, marked?, isSixteen]
  exact writes.afterMark?_sixteen

/-- The letters of marks are no decimal digits. -/
theorem Writes.baseOfMark?_eq_none
    (writes : Writes 10 digits n)
    (isIn : c ∈ digits) :
    baseOfMark? c = none := by
  have noDigits :
      ∀ letter ∈ ['x', 'X', 'o', 'O', 'b', 'B'],
        (hexValue? letter).all fun value => 10 ≤ value :=
    List.forall_iff_forall_mem.mp (by decide +kernel)
  obtain ⟨-, areDigits⟩ := writes
  have areSmall : ∀ c ∈ digits, ∃ value < 10, hexValue? c = some value := by
    refine ((List.forall₂_and_left _ _).mp
      (areDigits.imp fun c value isDigit => ⟨?_, isDigit⟩)).1
    exact ⟨value, isDigit.isSmall, isDigit.hexValue?_eq (by decide)⟩
  obtain ⟨value, isSmall, isValue⟩ := areSmall c isIn
  have notLetter : c ∉ ['x', 'X', 'o', 'O', 'b', 'B'] := by
    intro isLetter
    have isLarge := noDigits c isLetter
    simp only [isValue, Option.all_some, decide_eq_true_eq] at isLarge
    omega
  simp only [List.mem_cons, List.not_mem_nil, or_false, not_or] at notLetter
  simp [baseOfMark?, notLetter]

/--
Decimal digits that begin with a zero only for zero are read where a mark tells
the base.
-/
theorem Writes.unsigned?_marked_ten
    (writes : Writes 10 digits n)
    (short : digits.length ≤ maxDecimalDigits)
    (noZeros : digits.head? = some '0' → n = 0) :
    unsigned? .marked digits = some n := by
  have isNumber : decimal? digits = some n :=
    writes.unsigned?_ten short
  rw [unsigned?]
  unfold marked?
  split
  · next c rest =>
      have isZero : n = 0 :=
        noZeros rfl
      have noMark : baseOfMark? c = none :=
        writes.baseOfMark?_eq_none (by simp)
      simp only [noMark, isNumber, isZero]
      rfl
  · exact isNumber

/-- No sign stands among hex digits and their mark. -/
theorem Writes.not_mem_marked
    {mark : Char}
    (isMark : mark = 'x' ∨ mark = 'X')
    (writes : Writes 16 digits n) :
    '-' ∉ '0' :: mark :: digits ∧ '+' ∉ '0' :: mark :: digits := by
  have noDigit : '-' ∉ digits ∧ '+' ∉ digits :=
    ⟨writes.not_mem le_rfl rfl, writes.not_mem le_rfl rfl⟩
  rcases isMark with rfl | rfl <;> simp [noDigit]

/-- The characters of digits are those of keys. -/
theorem Writes.mem_keyChars
    (writes : Writes base digits n)
    (atMost : base ≤ 16) :
    ∀ c ∈ digits, c ∈ keyChars := by
  intro c isIn
  obtain ⟨value, isValue⟩ :=
    Option.isSome_iff_exists.mp (writes.isSome_hexValue? atMost c isIn)
  exact mem_keyChars_of_hexValue? isValue

theorem Writes.mem_keyChars_marked
    {mark : Char}
    (isMark : mark = 'x' ∨ mark = 'X')
    (writes : Writes 16 digits n) :
    ∀ c ∈ '0' :: mark :: digits, c ∈ keyChars := by
  have ofMark : mark ∈ keyChars := by
    rcases isMark with rfl | rfl <;> decide
  simp only [List.forall_mem_cons]
  exact ⟨by decide, ofMark, writes.mem_keyChars le_rfl⟩

end Digits

variable {body : List Char} {n : Int}

/--
The characters of an integer are neither blank nor those of another script.
-/
theorem signedChars_facts
    {sign : Sign}
    {digits : List Char}
    (areKeyChars : ∀ c ∈ digits, c ∈ keyChars) :
    ∀ c ∈ sign.chars ++ digits,
      Text.isBlank c = false ∧ isPadding c = false ∧ latin c = c := by
  intro c isIn
  rcases List.mem_append.mp isIn with inSign | inDigits
  · rcases Sign.mem_chars inSign with rfl | rfl <;> decide +kernel
  · obtain ⟨notBlank, -, notPadding, isLatin, -⟩ :=
      keyChars_facts c (areKeyChars c inDigits)
    exact ⟨notBlank, notPadding, isLatin⟩

theorem WritesInt.facts
    (writes : WritesInt body n) :
    ∀ c ∈ body, Text.isBlank c = false ∧ isPadding c = false ∧ latin c = c := by
  cases writes with
  | decimal sign writes short =>
      exact signedChars_facts (writes.mem_keyChars (by decide))
  | hex sign noPlus isMark writes =>
      exact signedChars_facts (writes.mem_keyChars_marked isMark)

/-- An integer without blanks is read in the base of its digits. -/
theorem read?_of_signed?
    {base : Base}
    (facts :
      ∀ c ∈ body, Text.isBlank c = false ∧ isPadding c = false ∧ latin c = c)
    (isRead : signed? base body = some n) :
    read? base body = some n := by
  have areLatin : body.map latin = body :=
    (List.map_congr_left fun c isIn => (facts c isIn).2.2).trans (List.map_id _)
  have trimmed : trim body = body :=
    dropEnds_of_forall fun c isIn => (facts c isIn).2.1
  rw [read?, areLatin, trimmed, isRead]

/--
The mark tells the base of the digits of an integer, and they are read as its
number.
-/
theorem WritesInt.read?_eq
    (writes : WritesInt body n) :
    (if hasHexMark (body.dropWhile (· == '-')) then
      read? .sixteen body
    else
      read? .ten body) =
      some n := by
  have isRead {base : Base} := @read?_of_signed? body n base writes.facts
  cases writes with
  | @decimal digits number sign writes short =>
      have noMark {c : Char} (isMark : c = 'x' ∨ c = 'X') :
          c ∉ (sign.chars ++ digits).dropWhile (· == '-') := by
        intro isIn
        rcases List.mem_append.mp ((List.dropWhile_sublist _).subset isIn) with
          inSign | inDigits
        · rcases Sign.mem_chars inSign with rfl | rfl
          · simp at isMark
          · simp at isMark
        · refine writes.not_mem (by decide) ?_ inDigits
          rcases isMark with rfl | rfl <;> rfl
      rw [hasHexMark_of_not_mem ⟨noMark (.inl rfl), noMark (.inr rfl)⟩]
      exact isRead (signed?_append sign (writes.not_mem (by decide) rfl)
        (writes.not_mem (by decide) rfl) (writes.unsigned?_ten short))
  | @hex mark digits number sign noPlus isMark writes =>
      have behindSign :
          (sign.chars ++ '0' :: mark :: digits).dropWhile (· == '-') =
            '0' :: mark :: digits := by
        cases sign with
        | plus =>
            exact absurd rfl noPlus
        | none | minus =>
            rfl
      obtain ⟨noMinus, noPlus⟩ := writes.not_mem_marked isMark
      rw [behindSign, if_pos (hasHexMark_mark isMark digits)]
      exact isRead
        (signed?_append sign noMinus noPlus (writes.unsigned?_sixteen isMark))

/-- Every text that writes an integer is read as the integer. -/
theorem ofText?_of_spells
    {text : String}
    (spells : Spells text n) :
    ofText? text = some n := by
  obtain ⟨before, body, after, isText, beforeBlank, afterBlank, writes⟩ :=
    spells
  have stripped : Text.strip text.toList = body :=
    Text.strip_of_blanks isText beforeBlank afterBlank fun c isIn =>
      (writes.facts c isIn).1
  simp only [ofText?, stripped]
  exact writes.read?_eq

end Numeral

end EvmStorage
