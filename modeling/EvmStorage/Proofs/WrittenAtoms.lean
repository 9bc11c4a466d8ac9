import EvmStorage.Json.Writer
import EvmStorage.Proofs.ReadDocuments
import EvmStorage.Proofs.Numerals

namespace EvmStorage.Json

/-!
# Reading texts and integers that were written

A text is written with escapes between two quotes, and an integer in decimal.
Both are read back as what they were, whatever stands behind a text, and behind
an integer whatever cannot be a part of a number.
-/

section Texts

/--
The code points by which a character is written: itself, or its two halves.
-/
def unitsOf (c : Char) : List Nat :=
  if c.toNat < 0x10000 then
    [c.toNat]
  else
    [0xd800 + (c.toNat - 0x10000) / 0x400, 0xdc00 + (c.toNat - 0x10000) % 0x400]

variable {a b c d : Char} {n : Nat} {rest behind : List Char}
  {points : List Nat}

/-- Four hex digits are read as the number that they write. -/
theorem unit?_of_writes
    (writes : Numeral.Writes 16 [a, b, c, d] n) :
    unit? a b c d = some n := by
  generalize isText : [a, b, c, d] = digits at writes
  obtain ⟨-, areDigits⟩ := writes
  subst isText
  rcases areDigits with
    _ | ⟨first, _ | ⟨second, _ | ⟨third, _ | ⟨fourth, _ | _⟩⟩⟩⟩
  rw [← Numeral.ofDigits_eq]
  simp [unit?, first.hexValue?_eq, second.hexValue?_eq, third.hexValue?_eq,
    fourth.hexValue?_eq]

/-- A code point that is written with an escape is read from it. -/
theorem scanString?_writeUnit
    (small : n < 0x10000)
    (isRead : scanString? rest = some (points, behind)) :
    scanString? (writeUnit n ++ rest) = some (n :: points, behind) := by
  have writes : Numeral.Writes 16 (Text.hexPadded 4 n) n :=
    (Numeral.writes_toDigits (by decide) le_rfl n).leftpad (by decide) 4
  have hasLength : (Text.hexPadded 4 n).length = 4 := by
    have atMost : (Nat.toDigits 16 n).length ≤ 4 :=
      (Nat.length_toDigits_le_iff (by decide) (by decide)).mpr small
    rw [Text.hexPadded, List.length_leftpad]
    omega
  obtain ⟨a, b, c, d, isText⟩ := List.length_eq_four.mp hasLength
  rw [isText] at writes
  simp [writeUnit, isText, scanString?, unit?_of_writes writes, isRead]

/-- What a letter behind a backslash stands for is read from it. -/
theorem scanString?_escape
    (isEscape : escaped? c = some n)
    (isRead : scanString? rest = some (points, behind)) :
    scanString? ('\\' :: c :: rest) = some (n :: points, behind) := by
  rw [scanString?]
  · simp [isEscape, isRead]
  · rintro _ _ _ _ _ rfl
    cases isEscape

/-- A character has a code point that is no half of another one. -/
theorem toNat_bounds (c : Char) :
    c.toNat < 0xd800 ∨ 0xdfff < c.toNat ∧ c.toNat < 0x110000 :=
  c.valid

/-- A character is read as the code points by which it is written. -/
theorem scanString?_writeChar
    (c : Char)
    (isRead : scanString? rest = some (points, behind)) :
    scanString? (writeChar c ++ rest) = some (unitsOf c ++ points, behind) := by
  unfold writeChar
  split
  · next isQuoteOrBackslash =>
      rcases isQuoteOrBackslash with rfl | rfl
      · exact scanString?_escape rfl isRead
      · exact scanString?_escape rfl isRead
  next notEscaped =>
  split
  · next isLineEnd =>
      subst isLineEnd
      exact scanString?_escape rfl isRead
  split
  · next isReturn =>
      subst isReturn
      exact scanString?_escape rfl isRead
  split
  · next isTab =>
      subst isTab
      exact scanString?_escape rfl isRead
  split
  · next isBackspace =>
      subst isBackspace
      exact scanString?_escape rfl isRead
  split
  · next isFormFeed =>
      subst isFormFeed
      exact scanString?_escape rfl isRead
  obtain ⟨notQuote, notBackslash⟩ := not_or.mp notEscaped
  split
  · next isPlain =>
      have notRefused : ¬ (c.toNat < 0x20 ∨ c = '\\') :=
        not_or.mpr ⟨by omega, notBackslash⟩
      have isUnit : unitsOf c = [c.toNat] :=
        if_pos (by omega)
      rw [List.singleton_append, isUnit, scanString?]
      · simp [notRefused, isRead]
      · exact notQuote
      · rintro _ _ _ _ _ rfl
        exact absurd rfl notBackslash
      · rintro _ _ rfl
        exact absurd rfl notBackslash
  split
  · next isSmall =>
      rw [unitsOf, if_pos isSmall]
      exact scanString?_writeUnit isSmall isRead
  · next isLarge =>
      have bounds := toNat_bounds c
      rw [unitsOf, if_neg isLarge, List.append_assoc]
      exact scanString?_writeUnit (by omega)
        (scanString?_writeUnit (by omega) isRead)

/-- The characters of a text are read up to the quote behind them. -/
theorem scanString?_flatMap
    (chars rest : List Char) :
    scanString? (chars.flatMap writeChar ++ '"' :: rest) =
      some (chars.flatMap unitsOf, rest) := by
  induction chars with
  | nil =>
      rfl
  | cons c chars inductionHypothesis =>
      rw [List.flatMap_cons, List.flatMap_cons, List.append_assoc]
      exact scanString?_writeChar c inductionHypothesis

/--
A code point that is no half stands for its character, whatever comes behind
it.
-/
theorem joinHalves?_cons
    (noHalf : ¬ (0xd800 ≤ n ∧ n < 0xe000))
    (points : List Nat) :
    joinHalves? (n :: points) =
      (joinHalves? points).map fun behind => Char.ofNat n :: behind := by
  have isCharacter : character? n = some (Char.ofNat n) :=
    if_neg noHalf
  cases points with
  | nil =>
      simp only [joinHalves?, isCharacter]
      rfl
  | cons next points =>
      have notHigh :
          ¬ (0xd800 ≤ n ∧ n < 0xdc00 ∧ 0xdc00 ≤ next ∧ next < 0xe000) := by
        omega
      rw [joinHalves?, if_neg notHigh, isCharacter]
      cases joinHalves? (next :: points) with
      | none =>
          rfl
      | some behind =>
          rfl

/--
The code points by which characters are written are joined to the characters.
-/
theorem joinHalves?_flatMap (chars : List Char) :
    joinHalves? (chars.flatMap unitsOf) = some chars := by
  induction chars with
  | nil =>
      rfl
  | cons c chars inductionHypothesis =>
      have bounds := toNat_bounds c
      rw [List.flatMap_cons, unitsOf]
      split
      · rw [List.singleton_append, joinHalves?_cons (by omega),
          inductionHypothesis, Option.map_some, Char.ofNat_toNat]
      · have areHalves :
            0xd800 ≤ 0xd800 + (c.toNat - 0x10000) / 0x400 ∧
              0xd800 + (c.toNat - 0x10000) / 0x400 < 0xdc00 ∧
              0xdc00 ≤ 0xdc00 + (c.toNat - 0x10000) % 0x400 ∧
              0xdc00 + (c.toNat - 0x10000) % 0x400 < 0xe000 := by
          omega
        have areJoined :
            0x10000 + (0xd800 + (c.toNat - 0x10000) / 0x400 - 0xd800) * 0x400 +
              (0xdc00 + (c.toNat - 0x10000) % 0x400 - 0xdc00) = c.toNat := by
          omega
        rw [List.cons_append, List.cons_append, List.nil_append, joinHalves?,
          if_pos areHalves, inductionHypothesis, areJoined, Char.ofNat_toNat]
        rfl

theorem toList_writeString (s : String) :
    (writeString s).toList = '"' :: s.toList.flatMap writeChar ++ ['"'] := by
  simp [writeString]

/-- A text is read behind its opening quote. -/
theorem readString_flatMap
    (s : String)
    (rest : List Char) :
    readString (s.toList.flatMap writeChar ++ '"' :: rest) = .ok (s, rest) := by
  rw [readString, scanString?_flatMap]
  simp only [joinHalves?_flatMap, String.ofList_toList]

end Texts

section Integers

/--
Whether nothing follows, or something that can only stand behind a whole value.
-/
def Follows (rest : List Char) : Prop :=
  ∀ c ∈ rest.head?, c ∈ [',', ']', '\x7d']

variable {n : Nat} {rest : List Char}

/-- What follows a value is no part of a number. -/
theorem Follows.not_part
    {c : Char}
    (follows : Follows (c :: rest)) :
    isDigit c = false ∧ c ≠ '.' ∧ c ≠ 'e' ∧ c ≠ 'E' := by
  have checked :
      ∀ c ∈ [',', ']', '\x7d'],
        isDigit c = false ∧ c ≠ '.' ∧ c ≠ 'e' ∧ c ≠ 'E' :=
    List.forall_iff_forall_mem.mp (by decide +kernel)
  exact checked c (follows c rfl)

/-- Decimal digits are digits of a number. -/
theorem isDigit_of_mem_toDigits
    {c : Char}
    (isIn : c ∈ Nat.toDigits 10 n) :
    isDigit c := by
  obtain ⟨values, areDigits, -, areSmall, -⟩ :=
    Numeral.exists_values_of_toDigits (by decide : 1 < 10) n
  rw [areDigits, List.mem_map] at isIn
  obtain ⟨value, isValue, rfl⟩ := isIn
  have areChecked : ∀ value < 10, isDigit (Nat.digitChar value) := by
    decide
  exact areChecked value (areSmall value isValue)

/-- The number of decimal digits is read. -/
theorem natOf_toDigits (n : Nat) :
    natOf (Nat.toDigits 10 n) = n := by
  obtain ⟨values, areDigits, -, areSmall, isNumber⟩ :=
    Numeral.exists_values_of_toDigits (by decide : 1 < 10) n
  have areValues :
      ∀ value < 10, (Nat.digitChar value).toNat - '0'.toNat = value := by
    decide
  have sameValues :
      (values.map Nat.digitChar).map (fun c => c.toNat - '0'.toNat) =
        values := by
    rw [List.map_map]
    exact (List.map_congr_left fun value isIn =>
      areValues value (areSmall value isIn)).trans
      (List.map_id _)
  rw [natOf, areDigits, sameValues, isNumber]

/-- All digits of an integer stand in front of what follows it. -/
theorem takeWhile_isDigit
    {digits : List Char}
    (areDigits : ∀ c ∈ digits, isDigit c)
    (follows : Follows rest) :
    (digits ++ rest).takeWhile isDigit = digits ∧
      (digits ++ rest).dropWhile isDigit = rest := by
  rw [List.takeWhile_append_of_pos areDigits,
    List.dropWhile_append_of_pos areDigits]
  cases rest with
  | nil =>
      simp
  | cons c rest =>
      simp [follows.not_part.1]

/-- The decimal digits of a number are the digits before the point. -/
theorem scanWhole?_toDigits
    (follows : Follows rest) :
    scanWhole? (Nat.toDigits 10 n ++ rest) =
      some (Nat.toDigits 10 n, rest) := by
  rcases Nat.eq_zero_or_pos n with rfl | positive
  · rfl
  · have noZero := Numeral.head?_toDigits positive
    have areDigits : ∀ c ∈ Nat.toDigits 10 n, isDigit c :=
      fun c isIn => isDigit_of_mem_toDigits isIn
    cases isText : Nat.toDigits 10 n with
    | nil =>
        exact absurd isText Nat.toDigits_ne_nil
    | cons first digits =>
        rw [isText] at noZero areDigits
        obtain ⟨isFirst, areLater⟩ := List.forall_mem_cons.mp areDigits
        obtain ⟨areTaken, areDropped⟩ := takeWhile_isDigit areLater follows
        rw [List.cons_append, scanWhole?]
        · simp only [isFirst, ↓reduceIte, areTaken, areDropped]
        · rintro rfl
          exact noZero rfl

/-- An integer without its sign is read, if it is not too long. -/
theorem readNumber_toDigits
    (short : n < 10 ^ Numeral.maxDecimalDigits)
    (follows : Follows rest)
    (negative : Bool) :
    readNumber negative (Nat.toDigits 10 n ++ rest) =
      .ok (.int (if negative then -(n : Int) else n), rest) := by
  have fewDigits : (Nat.toDigits 10 n).length ≤ Numeral.maxDecimalDigits :=
    (Nat.length_toDigits_le_iff (by decide) (by decide)).mpr short
  have noFraction : scanFraction rest = (none, rest) := by
    unfold scanFraction
    split
    · exact absurd rfl follows.not_part.2.1
    · rfl
  have noExponent : scanExponent rest = (none, rest) := by
    unfold scanExponent
    split
    · obtain ⟨-, -, notLower, notUpper⟩ := follows.not_part
      rw [if_neg (not_or.mpr ⟨notLower, notUpper⟩)]
    · rfl
  simp only [readNumber, scanWhole?_toDigits follows, noFraction, noExponent,
    fewDigits, ↓reduceIte, natOf_toDigits]

/-- No fixed word begins with a digit, and none with a digit behind a minus. -/
theorem readWord?_of_digit
    {c : Char}
    (isFirst : isDigit c) :
    readWord? (c :: rest) = none ∧ readWord? ('-' :: c :: rest) = none := by
  have notDigit : ∀ letter ∈ "ntfNI-".toList, isDigit letter = false :=
    List.forall_iff_forall_mem.mp (by decide +kernel)
  have differs : ∀ letter ∈ "ntfNI-".toList, letter ≠ c := by
    rintro letter isIn rfl
    exact Bool.false_ne_true ((notDigit letter isIn).symm.trans isFirst)
  simp [readWord?, words, after?, differs]

/-- An integer that is not too long is read from its text. -/
theorem readAtom_toString
    {n : Int}
    (canWrite : Value.canWriteInt n)
    (follows : Follows rest) :
    readAtom ((toString n).toList ++ rest) = .ok (.int n, rest) := by
  have short := of_decide_eq_true canWrite
  rw [Value.writableBound_eq] at short
  have isNumber := @readNumber_toDigits n.natAbs rest short follows
  have areDigits : ∀ c ∈ Nat.toDigits 10 n.natAbs, isDigit c :=
    fun c isIn => isDigit_of_mem_toDigits isIn
  rw [Numeral.toList_toString]
  cases isText : Nat.toDigits 10 n.natAbs with
  | nil =>
      exact absurd isText Nat.toDigits_ne_nil
  | cons first digits =>
      rw [isText] at isNumber areDigits
      obtain ⟨noWord, noNegativeWord⟩ :=
        @readWord?_of_digit (digits ++ rest) first
          (areDigits first List.mem_cons_self)
      split
      · next negative =>
          have isNegative : -(n.natAbs : Int) = n := by
            omega
          change readAtom ('-' :: first :: (digits ++ rest)) = _
          rw [readAtom, noNegativeWord]
          exact (isNumber true).trans (by rw [if_pos rfl, isNegative])
      · next nonneg =>
          have isNonneg : (n.natAbs : Int) = n := by
            omega
          change readAtom (first :: (digits ++ rest)) = _
          rw [readAtom, noWord]
          · exact (isNumber false).trans
              (by rw [if_neg Bool.false_ne_true, isNonneg])
          · rintro _ isMinus
            rw [(List.cons.inj isMinus).1] at areDigits
            exact absurd (areDigits '-' List.mem_cons_self) (by decide)

end Integers

end EvmStorage.Json
