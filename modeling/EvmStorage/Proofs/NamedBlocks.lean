import EvmStorage.Proofs.DigitSigns
import EvmStorage.Proofs.Outcome
import EvmStorage.Settings

namespace EvmStorage

/-!
# Named blocks

A text names a block by its number if it consists of decimal digits of any
scripts, or of hex digits behind a mark, and every other text is a tag that
names a block itself.  What is read from a name names the same block again.
Superscripts and circled digits are no decimal digits, but a text of them does
not pass for a tag: it is refused, with other digits among them or without.
-/

namespace Block

/-- Whether a text begins with the mark of hex digits. -/
def IsMarked (s : List Char) : Prop :=
  ∃ mark digits, (mark = 'x' ∨ mark = 'X') ∧ s = '0' :: mark :: digits

/--
Whether a text is made of the signs of digits, of which not all are decimal
digits.
-/
structure LooksNumeric (s : List Char) : Prop where
  areSigns : ∀ c ∈ s, Text.isDigitSign c
  notDecimal : ∃ c ∈ s, Text.digitValue? c = none

/-- The texts that write the number of a block. -/
inductive WritesNumber : List Char → Nat → Prop where
  | decimal
      {digits : List Char}
      {n : Nat}
      (writes : Numeral.Writes 10 digits n)
      (short : digits.length ≤ Numeral.maxDecimalDigits) :
      WritesNumber digits n
  | hex
      {mark : Char}
      {digits : List Char}
      {n : Nat}
      (isMark : mark = 'x' ∨ mark = 'X')
      (writes : Numeral.Writes 16 digits n) :
      WritesNumber ('0' :: mark :: digits) n

/-- The names of a block that has a number. -/
inductive Names : Value → Nat → Prop where
  | number
      {n : Nat}
      (short : n < 10 ^ Numeral.maxDecimalDigits) :
      Names (.int n) n
  | text
      {text : String}
      {before body after : List Char}
      {n : Nat}
      (isText : text.toList = before ++ body ++ after)
      (beforeBlank : ∀ c ∈ before, Text.isBlank c)
      (afterBlank : ∀ c ∈ after, Text.isBlank c)
      (writes : WritesNumber body n) :
      Names (.text text) n

variable {s body : List Char} {text : String} {n : Nat} {value named : Value}

/-- A text begins with a mark if one can be dropped from it. -/
theorem hasHexMark_iff :
    Numeral.hasHexMark s ↔ IsMarked s := by
  constructor
  · intro marked
    rcases dropHexMark_eq_or s with kept | ⟨mark, isMark, isText⟩
    · exact absurd kept (bne_iff_ne.mp marked)
    · exact ⟨mark, _, isMark, isText⟩
  · rintro ⟨mark, digits, isMark, rfl⟩
    exact Numeral.hasHexMark_mark isMark digits

/-- A text names a block by what is left of it without the blanks around it. -/
theorem ofValue_text (text : String) :
    ofValue (.text text) = ofStripped (Text.strip text.toList) :=
  rfl

/-- A number is taken from a text exactly if it can be read. -/
theorem number_eq_ok_iff
    {base : Numeral.Base} :
    number base s = .ok named ↔ ∃ n,
      Numeral.read? base s = some n ∧ named = .int n := by
  unfold number
  cases Numeral.read? base s with
  | none =>
      simp
  | some n =>
      simp [eq_comm]

/-- Signs of digits are taken for a decimal number. -/
theorem ofStripped_of_signs
    (notEmpty : s ≠ [])
    (areSigns : ∀ c ∈ s, Text.isDigitSign c) :
    ofStripped s = number .ten s := by
  have looksNumeric : (!s.isEmpty && s.all Text.isDigitSign) = true := by
    simpa [notEmpty] using areSigns
  rw [ofStripped, if_pos looksNumeric]

/-- A text with the mark of hex digits is taken for a number in them. -/
theorem ofStripped_of_mark (marked : IsMarked s) :
    ofStripped s = number .sixteen s := by
  have noSign : (!s.isEmpty && s.all Text.isDigitSign) = false := by
    obtain ⟨mark, digits, rfl | rfl, rfl⟩ := marked
    · simp [show Text.isDigitSign 'x' = false by decide +kernel]
    · simp [show Text.isDigitSign 'X' = false by decide +kernel]
  rw [ofStripped, noSign, if_neg Bool.false_ne_true,
    if_pos (hasHexMark_iff.mpr marked)]

/-- A text that is neither a number by its signs nor by its mark is a tag. -/
theorem ofStripped_of_tag
    (notSigns : s = [] ∨ ∃ c ∈ s, Text.isDigitSign c = false)
    (notMarked : ¬ IsMarked s) :
    ofStripped s = .ok (.text (String.ofList s)) := by
  have noSign : (!s.isEmpty && s.all Text.isDigitSign) = false := by
    rcases notSigns with rfl | ⟨c, isIn, notSign⟩
    · rfl
    · simp only [Bool.and_eq_false_iff, List.all_eq_false, Bool.not_eq_true]
      exact .inr ⟨c, isIn, notSign⟩
  rw [ofStripped, noSign, if_neg Bool.false_ne_true,
    if_neg (mt hasHexMark_iff.mp notMarked)]

/-- Decimal digits of any scripts are the number of a block. -/
theorem ofStripped_of_digits
    {values : List Nat}
    (notEmpty : s ≠ [])
    (areDigits :
      List.Forall₂ (fun c value => Text.digitValue? c = some value) s values)
    (short : s.length ≤ Numeral.maxDecimalDigits) :
    ofStripped s = .ok (.int (Nat.ofDigits 10 values.reverse : Nat)) := by
  have areSigns : ∀ c ∈ s, Text.isDigitSign c := by
    refine ((List.forall₂_and_left _ _).mp
      (areDigits.imp fun c value isValue => ⟨?_, isValue⟩)).1
    simp [Text.isDigitSign, isValue]
  rw [ofStripped_of_signs notEmpty areSigns, number,
    Numeral.read?_of_digitValues notEmpty areDigits short]

/-- Signs of digits that are not all decimal digits are refused. -/
theorem LooksNumeric.ofStripped_eq (looksNumeric : LooksNumeric s) :
    ofStripped s = .error (.misuse .notNumeral) := by
  obtain ⟨c, isIn, noValue⟩ := looksNumeric.notDecimal
  have isSign : Text.digitSignBounds.holds c := by
    simpa [Text.isDigitSign, noValue] using looksNumeric.areSigns c isIn
  have notRead : Numeral.read? .ten s = none := by
    refine Option.eq_none_iff_forall_ne_some.mpr fun n isRead => ?_
    -- The sign is no Latin digit once it is read, as a decimal digit would be:
    -- it stays itself.
    have isAscii := Numeral.toNat_lt_of_read? isRead c isIn
    rw [Numeral.latin_of_digitSign noValue isSign] at isAscii
    exact absurd isAscii (not_lt.mpr (Text.facts_of_digitSign isSign).1)
  rw [ofStripped_of_signs (List.ne_nil_of_mem isIn) looksNumeric.areSigns,
    number, notRead]

/-- A Latin digit is a decimal digit of its value. -/
theorem digitValue?_of_isDigit
    {c : Char}
    {value : Nat}
    (isDigit : Numeral.IsDigit 10 c value) :
    Text.digitValue? c = some value := by
  have areValues :
      ∀ c ∈ keyChars, ∀ value < 10,
        Numeral.IsDigit 10 c value → Text.digitValue? c = some value :=
    List.forall_iff_forall_mem.mp (by decide +kernel)
  have isKeyChar := mem_keyChars_of_hexValue? (isDigit.hexValue?_eq (by decide))
  exact areValues c isKeyChar value isDigit.isSmall isDigit

/-- What writes a number is taken for this number. -/
theorem WritesNumber.ofStripped_eq (writes : WritesNumber body n) :
    ofStripped body = .ok (.int n) := by
  cases writes with
  | decimal writes short =>
      obtain ⟨notEmpty, areDigits⟩ := writes
      exact ofStripped_of_digits notEmpty
        (areDigits.imp fun _ _ isDigit => digitValue?_of_isDigit isDigit) short
  | hex isMark writes =>
      rw [ofStripped_of_mark ⟨_, _, isMark, rfl⟩, number,
        writes.read?_sixteen isMark]

/-- What writes a number has no blanks. -/
theorem WritesNumber.notBlank (writes : WritesNumber body n) :
    ∀ c ∈ body, Text.isBlank c = false := by
  intro c isIn
  cases writes with
  | decimal writes short =>
      exact (keyChars_facts c (writes.mem_keyChars (by decide) c isIn)).1
  | hex isMark writes =>
      exact (keyChars_facts c (writes.mem_keyChars_marked isMark c isIn)).1

/-- A block is found by each of the names that it has for its number. -/
theorem Names.ofValue_eq (names : Names value n) :
    ofValue value = .ok (.int n) := by
  cases names with
  | number short =>
      have canWrite : Value.canWriteInt (n : Int) := by
        rw [Value.canWriteInt, Value.writableBound_eq, Int.natAbs_natCast]
        exact decide_eq_true short
      have writes : WritesNumber (Nat.toDigits 10 n) n :=
        .decimal (Numeral.writes_toDigits (by decide) (by decide) n)
          ((Nat.length_toDigits_le_iff (by decide) (by decide)).mpr short)
      have isText :
          (Value.int n).plain.toList = [] ++ Nat.toDigits 10 n ++ [] := by
        have noSign : ¬ (n : Int) < 0 := by
          omega
        have isText := Numeral.toList_toString n
        rw [if_neg noSign, Int.natAbs_natCast] at isText
        rw [List.append_nil]
        exact isText
      rw [ofValue, if_pos (show (Value.int n).canShow from canWrite),
        Text.strip_of_blanks isText nofun nofun writes.notBlank,
        writes.ofStripped_eq]
  | text isText beforeBlank afterBlank writes =>
      rw [ofValue_text,
        Text.strip_of_blanks isText beforeBlank afterBlank writes.notBlank,
        writes.ofStripped_eq]

/--
What a stripped text names is a number that is not negative, or the text
itself.
-/
theorem cases_of_ofStripped
    (isNamed : ofStripped s = .ok named) :
    (∃ n : Nat, named = .int n) ∨ named = .text (String.ofList s) := by
  have ofNumber
      {base : Numeral.Base}
      (beginsWithSign :
        ∃ first rest, s = first :: rest ∧ Text.isDigitSign first)
      (isNumber : number base s = .ok named) :
      ∃ n : Nat, named = .int n := by
    obtain ⟨n, isRead, rfl⟩ := number_eq_ok_iff.mp isNumber
    obtain ⟨first, rest, rfl, isSign⟩ := beginsWithSign
    obtain ⟨m, rfl⟩ :=
      Int.eq_ofNat_of_zero_le (Numeral.nonneg_of_isDigitSign isSign isRead)
    exact ⟨m, rfl⟩
  by_cases marked : IsMarked s
  · rw [ofStripped_of_mark marked] at isNamed
    obtain ⟨mark, digits, -, rfl⟩ := marked
    exact .inl (ofNumber ⟨'0', _, rfl, by decide +kernel⟩ isNamed)
  · by_cases areSigns : ∀ c ∈ s, Text.isDigitSign c
    · cases s with
      | nil =>
          cases isNamed
          exact .inr rfl
      | cons first rest =>
          rw [ofStripped_of_signs (List.cons_ne_nil _ _) areSigns] at isNamed
          exact .inl (ofNumber
            ⟨first, rest, rfl, areSigns first List.mem_cons_self⟩ isNamed)
    · rw [ofStripped_of_tag (.inr (by simpa using areSigns)) marked] at isNamed
      exact .inr (Except.ok.inj isNamed).symm

/--
What a value names a block by names the same block, if its number can be
written.
-/
theorem ofValue_of_ofValue
    (isNamed : ofValue value = .ok named)
    (short : ∀ n : Int, named = .int n → n < 10 ^ Numeral.maxDecimalDigits) :
    ofValue named = .ok named := by
  unfold ofValue at isNamed
  split at isNamed
  · rcases cases_of_ofStripped isNamed with ⟨n, rfl⟩ | rfl
    · exact (Names.number (by exact_mod_cast short n rfl)).ofValue_eq
    · rw [ofValue_text, String.toList_ofList, Text.strip_strip]
      exact isNamed
  · cases isNamed

end Block

/-- The default block of an environment is named by a text. -/
theorem Settings.exists_named
    {environment : List (String × String)}
    {settings : Settings}
    (areSettings : ofEnvironment environment = .ok settings) :
    ∃ value, Block.ofValue value = .ok settings.defaultBlock := by
  simp only [ofEnvironment, Outcome.bind_eq_ok_iff] at areSettings
  obtain ⟨timeoutMs, -, maxRetries, -, defaultBlock, isNamed, areSettings⟩ :=
    areSettings
  obtain rfl := Except.ok.inj areSettings
  exact ⟨_, isNamed⟩

namespace Block

/--
A text without the mark of hex digits names a block by its number if it is made
of decimal digits, and otherwise is a tag, unless it is made of signs of digits;
in this case alone it is refused.

Every name of a number is read as the number, and what a value names a block by
names the same block again, as long as its number can be written.
-/
theorem ofValue_names_blocks
    {text : String}
    {s : List Char}
    (isStripped : Text.strip text.toList = s)
    (value : Value)
    (environment : List (String × String)) :
    (¬ IsMarked s →
        s.length ≤ Numeral.maxDecimalDigits →
        (∀ values,
            s ≠ [] →
            List.Forall₂
              (fun c value => Text.digitValue? c = some value) s values →
            ofValue (.text text) =
              .ok (.int (Nat.ofDigits 10 values.reverse : Nat))) ∧
          (¬ LooksNumeric s →
            s = [] ∨ (∃ c ∈ s, Text.digitValue? c = none) →
            ofValue (.text text) = .ok (.text (String.ofList s))) ∧
          (LooksNumeric s →
            ofValue (.text text) = .error (.misuse .notNumeral))) ∧
      (∀ n, Names value n → ofValue value = .ok (.int n)) ∧
      (∀ named,
        ofValue value = .ok named →
        (∀ n : Int, named = .int n → n < 10 ^ Numeral.maxDecimalDigits) →
        ofValue named = .ok named) ∧
      ∀ settings,
        Settings.ofEnvironment environment = .ok settings →
        (∀ n : Int, settings.defaultBlock = .int n →
          n < 10 ^ Numeral.maxDecimalDigits) →
        ofValue settings.defaultBlock = .ok settings.defaultBlock := by
  refine ⟨?_, fun n names => names.ofValue_eq,
    fun named isNamed short => ofValue_of_ofValue isNamed short, ?_⟩
  · intro notMarked short
    rw [ofValue_text, isStripped]
    refine ⟨fun values notEmpty areDigits =>
      ofStripped_of_digits notEmpty areDigits short,
      fun notNumeric notDecimal => ofStripped_of_tag ?_ notMarked,
      fun looksNumeric => looksNumeric.ofStripped_eq⟩
    refine notDecimal.imp_right fun someOther => ?_
    by_contra noOther
    exact notNumeric ⟨by simpa using noOther, someOther⟩
  · intro settings areSettings short
    obtain ⟨other, isNamed⟩ := Settings.exists_named areSettings
    exact ofValue_of_ofValue isNamed short

/--
A block is named by digits of another script, by hex digits, by its number and
by a tag.
-/
theorem ofValue_of_twelve :
    ofValue (.text " ١٢\n") = .ok (.int 12) ∧
      ofValue (.text "\t0X00c") = .ok (.int 12) ∧
      ofValue (.int 12) = .ok (.int 12) ∧
      ofValue (.text " finalized") = .ok (.text "finalized") := by
  have notMarked {c : Char} {rest : List Char} (notZero : c ≠ '0') :
      ¬ IsMarked (c :: rest) := by
    rintro ⟨mark, digits, -, isText⟩
    exact notZero (List.cons.inj isText).1
  have isArabic : Text.strip " ١٢\n".toList = ['١', '٢'] := by
    decide +kernel
  have isFinalized : Text.strip " finalized".toList = "finalized".toList := by
    decide +kernel
  have notNumeric : ¬ LooksNumeric "finalized".toList := by
    have noSign : Text.isDigitSign 'f' = false := by
      decide +kernel
    intro looksNumeric
    exact Bool.false_ne_true
      (noSign.symm.trans (looksNumeric.areSigns 'f' (by decide)))
  have writes : WritesNumber "0X00c".toList 12 :=
    .hex (.inr rfl)
      (@Numeral.Writes.digits 16 "00c".toList [0, 0, 12] (by decide)
        (by decide))
  have isHex : Names (.text "\t0X00c") 12 :=
    @Names.text "\t0X00c" ['\t'] _ [] 12 (by decide)
      (List.forall_mem_singleton.mpr (by decide)) nofun writes
  obtain ⟨ofDigits, -, again, -⟩ :=
    ofValue_names_blocks isArabic (.text " ١٢\n") []
  obtain ⟨ofTag, ofName, -⟩ :=
    ofValue_names_blocks isFinalized (.text "\t0X00c") []
  have isNumber : ofValue (.text " ١٢\n") = .ok (.int 12) :=
    (ofDigits (notMarked (by decide)) (by decide)).1 [1, 2] (by decide)
      (.cons (by decide +kernel) (.cons (by decide +kernel) .nil))
  have isTag : ofValue (.text " finalized") = .ok (.text "finalized") :=
    (ofTag (notMarked (by decide)) (by decide)).2.1 notNumeric
      (.inr ⟨'f', by decide, by decide +kernel⟩)
  exact ⟨isNumber, ofName 12 isHex,
    again _ isNumber (by rintro n ⟨⟩; decide +kernel), isTag⟩

/--
A superscript has no mark and is no decimal digit, but it is refused and not
taken for a tag.
-/
theorem ofValue_of_superscript :
    ¬ IsMarked (Text.strip "²".toList) ∧
      Text.digitValue? '²' = none ∧
      ofValue (.text "²") = .error (.misuse .notNumeral) ∧
      Settings.ofEnvironment [("DEFAULT_BLOCK", "²")] =
        .error (.misuse .notNumeral) := by
  have isStripped : Text.strip "²".toList = ['²'] := by
    decide +kernel
  have noValue : Text.digitValue? '²' = none := by
    decide +kernel
  have looksNumeric : LooksNumeric (Text.strip "²".toList) := by
    rw [isStripped]
    exact ⟨List.forall_mem_singleton.mpr (by decide +kernel),
      '²', by decide, noValue⟩
  have notMarked : ¬ IsMarked (Text.strip "²".toList) := by
    rw [isStripped]
    rintro ⟨mark, digits, -, isText⟩
    cases isText
  have isRefused : ofValue (.text "²") = .error (.misuse .notNumeral) :=
    looksNumeric.ofStripped_eq
  refine ⟨notMarked, noValue, isRefused, ?_⟩
  simp [Settings.ofEnvironment, Settings.integer, List.lookup_cons, isRefused]

end Block

end EvmStorage
