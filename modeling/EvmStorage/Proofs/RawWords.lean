import EvmStorage.Proofs.Numerals
import EvmStorage.Proofs.ReadPlan
import EvmStorage.Proofs.Returning
import EvmStorage.Proofs.SignExtension

namespace EvmStorage

/-!
# Words of raw values

A provider may give a word as a number, as hex digits with or without a mark in
front, or as bytes, and it may leave out zeros in front.  Whatever it gives, a
window of the word has the digits in base 256 that the number has from the
offset of the window on: the number is shifted and masked.
-/

namespace Bytes

variable {digits : List Char} {values : List Nat} {content : Bytes}
  {text : String}

/--
An even number of hex digits writes half as many bytes, with the same number.
-/
theorem exists_content_of_digits
    (areDigits : List.Forall₂ (Numeral.IsDigit 16) digits values)
    (isEven : digits.length % 2 = 0) :
    ∃ content,
      ofHexDigits? digits = some content ∧
        digits.length = 2 * content.length ∧
        toNat content = Nat.ofDigits 16 values.reverse := by
  induction digits using ofHexDigits?.induct generalizing values with
  | case1 =>
      cases areDigits
      exact ⟨[], rfl, rfl, rfl⟩
  | case2 c =>
      cases isEven
  | case3 high low rest inductionHypothesis =>
      obtain ⟨upper, _, isHigh, areBehind, rfl⟩ :=
        List.forall₂_cons_left_iff.mp areDigits
      obtain ⟨lower, later, isLow, areLater, rfl⟩ :=
        List.forall₂_cons_left_iff.mp areBehind
      have restIsEven : rest.length % 2 = 0 := by
        simp only [List.length_cons] at isEven
        omega
      obtain ⟨content, isContent, isLength, isNumber⟩ :=
        inductionHypothesis areLater restIsEven
      have isUpper := isHigh.hexValue?_eq (by decide)
      have isLower := isLow.hexValue?_eq (by decide)
      have isByte :
          (UInt8.ofNat (upper * 16 + lower)).toNat = upper * 16 + lower := by
        have := isHigh.isSmall
        have := isLow.isSmall
        rw [UInt8.toNat_ofNat']
        omega
      have sameLength : later.length = 2 * content.length := by
        rw [← areLater.length_eq, isLength]
      have isPower : 256 ^ content.length = 16 ^ later.length := by
        rw [sameLength, pow_mul]
        rfl
      refine ⟨UInt8.ofNat (upper * 16 + lower) :: content, ?_, ?_, ?_⟩
      · simp [ofHexDigits?, isUpper, isLower, isContent]
      · simp only [List.length_cons, isLength]
        omega
      · rw [toNat_cons, isByte, isNumber, isPower, List.reverse_cons,
          List.reverse_cons, Nat.ofDigits_append, Nat.ofDigits_append,
          Nat.ofDigits_singleton, Nat.ofDigits_singleton, List.length_append,
          List.length_reverse, List.length_singleton, pow_succ]
        ring

/-- Whatever bytes are read from are hex digits. -/
theorem exists_values_of_ofHexDigits?
    (isContent : ofHexDigits? digits = some content) :
    ∃ values, List.Forall₂ (Numeral.IsDigit 16) digits values := by
  induction digits using ofHexDigits?.induct generalizing content with
  | case1 =>
      exact ⟨[], .nil⟩
  | case2 c =>
      cases isContent
  | case3 high low rest inductionHypothesis =>
      simp only [ofHexDigits?, Option.bind_eq_bind, Option.bind_eq_some_iff]
        at isContent
      obtain ⟨upper, isUpper, lower, isLower, later, isLater, -⟩ := isContent
      obtain ⟨values, areDigits⟩ := inductionHypothesis isLater
      have isHigh := Numeral.isDigit_of_hexValue? isUpper
      have isLow := Numeral.isDigit_of_hexValue? isLower
      exact ⟨upper :: lower :: values, .cons isHigh (.cons isLow areDigits)⟩

/--
Hex digits are read as bytes that write the same number, two digits for each.
-/
theorem exists_content_of_ofHex?
    (areDigits :
      List.Forall₂ (Numeral.IsDigit 16) (dropHexMark text.toList) values) :
    ∃ content,
      ofHex? text = some content ∧
        content.length = ((dropHexMark text.toList).length + 1) / 2 ∧
        toNat content = Nat.ofDigits 16 values.reverse := by
  unfold ofHex?
  dsimp only
  split
  · next isEven =>
      obtain ⟨content, isContent, isLength, isNumber⟩ :=
        exists_content_of_digits areDigits isEven
      exact ⟨content, isContent, by omega, isNumber⟩
  · next isOdd =>
      have isZero : Numeral.IsDigit 16 '0' 0 := by
        decide
      obtain ⟨content, isContent, isLength, isNumber⟩ :=
        exists_content_of_digits (.cons isZero areDigits)
          (by rw [List.length_cons]; omega)
      rw [List.length_cons] at isLength
      refine ⟨content, isContent, by omega, ?_⟩
      rw [isNumber, List.reverse_cons, Nat.ofDigits_append,
        Nat.ofDigits_singleton, Nat.mul_zero, Nat.add_zero]

/-- Whatever bytes are read from is hex digits behind a mark or without one. -/
theorem exists_values_of_ofHex?
    (isContent : ofHex? text = some content) :
    ∃ values,
      List.Forall₂ (Numeral.IsDigit 16) (dropHexMark text.toList) values := by
  unfold ofHex? at isContent
  dsimp only at isContent
  split at isContent
  · exact exists_values_of_ofHexDigits? isContent
  · obtain ⟨values, areDigits⟩ := exists_values_of_ofHexDigits? isContent
    cases areDigits with
    | cons _ areLater =>
        exact ⟨_, areLater⟩

end Bytes

/-- Digits without a mark have none that could be dropped. -/
theorem dropHexMark_of_digits
    {digits : List Char}
    {values : List Nat}
    (areDigits : List.Forall₂ (Numeral.IsDigit 16) digits values) :
    dropHexMark digits = digits := by
  have noMark : ∀ mark rest, hexValue? mark = none →
      ¬ List.Forall₂ (Numeral.IsDigit 16) ('0' :: mark :: rest) values := by
    intro mark rest noValue areMarked
    obtain ⟨_, _, -, areBehind, -⟩ := List.forall₂_cons_left_iff.mp areMarked
    obtain ⟨_, _, isMark, -, -⟩ := List.forall₂_cons_left_iff.mp areBehind
    have isValue := isMark.hexValue?_eq (by decide)
    rw [noValue] at isValue
    cases isValue
  unfold dropHexMark
  split
  · exact absurd areDigits (noMark 'x' _ (by decide))
  · exact absurd areDigits (noMark 'X' _ (by decide))
  · rfl

namespace Word

/-- The numbers that raw values are meant for. -/
inductive Means : Value → Nat → Prop where
  | number
      {n : Nat}
      (below : n < 2 ^ 256) :
      Means (.int n) n
  | digits
      {text : String}
      {digits : List Char}
      {values : List Nat}
      (isText : text.toList = digits)
      (areDigits : List.Forall₂ (Numeral.IsDigit 16) digits values)
      (short : digits.length ≤ 64) :
      Means (.text text) (Nat.ofDigits 16 values.reverse)
  | markedDigits
      {text : String}
      {mark : Char}
      {digits : List Char}
      {values : List Nat}
      (isMark : mark = 'x' ∨ mark = 'X')
      (isText : text.toList = '0' :: mark :: digits)
      (areDigits : List.Forall₂ (Numeral.IsDigit 16) digits values)
      (short : digits.length ≤ 64) :
      Means (.text text) (Nat.ofDigits 16 values.reverse)
  | bytes
      {content : Bytes}
      (short : content.length ≤ 32) :
      Means (.bytes content) content.toNat

variable {raw : Value} {n : Nat} {word content : Bytes} {s : String}
  {values : List Nat}

/--
Bytes that are too few are filled up to the word of the number that they write.
-/
theorem ofBytes_of_short
    (short : content.length ≤ slotSize) :
    ofBytes content = .ok (ofNat content.toNat) := by
  rw [ofBytes, if_neg (by omega), ofNat_toNat short]
  rfl

/-- A text of hex digits is the word of the number that they write. -/
theorem ofRaw_text
    (areDigits :
      List.Forall₂ (Numeral.IsDigit 16) (dropHexMark s.toList) values)
    (short : (dropHexMark s.toList).length ≤ 64) :
    ofRaw (.text s) = .ok (ofNat (Nat.ofDigits 16 values.reverse)) := by
  obtain ⟨content, isContent, isLength, isNumber⟩ :=
    Bytes.exists_content_of_ofHex? areDigits
  have fits : content.length ≤ slotSize := by
    rw [slotSize]
    omega
  simp only [ofRaw, isContent]
  rw [ofBytes_of_short fits, isNumber]

/-- Every raw value that is meant for a number is the word of that number. -/
theorem Means.ofRaw_eq
    (isMeant : Means raw n) :
    ofRaw raw = .ok (ofNat n) := by
  cases isMeant with
  | number below =>
      have inside : inSlotSpace n := by
        rw [inSlotSpace_iff, slotModulus_eq]
        exact ⟨Int.natCast_nonneg n, by exact_mod_cast below⟩
      simp only [ofRaw, inside, ↓reduceIte, Int.toNat_natCast]
  | digits isText areDigits short =>
      rw [← isText] at areDigits short
      have noMark := dropHexMark_of_digits areDigits
      exact ofRaw_text (by rwa [noMark]) (by rwa [noMark])
  | markedDigits isMark isText areDigits short =>
      have noMark :=
        (congrArg dropHexMark isText).trans (dropHexMark_mark isMark _)
      exact ofRaw_text (by rwa [noMark]) (by rwa [noMark])
  | bytes short =>
      exact ofBytes_of_short short

/-- A text that is accepted has at most two digits for each byte of a word. -/
theorem exists_means_of_ofHex?
    (isContent : Bytes.ofHex? s = some content)
    (fits : content.length ≤ slotSize) :
    ∃ n, Means (.text s) n := by
  obtain ⟨values, areDigits⟩ := Bytes.exists_values_of_ofHex? isContent
  obtain ⟨other, isOther, isLength, -⟩ :=
    Bytes.exists_content_of_ofHex? areDigits
  obtain rfl := Option.some.inj (isContent.symm.trans isOther)
  have short : (dropHexMark s.toList).length ≤ 64 := by
    rw [slotSize] at fits
    omega
  rcases dropHexMark_eq_or s.toList with noMark | ⟨mark, isMark, isText⟩
  · exact ⟨_, .digits noMark.symm areDigits short⟩
  · exact ⟨_, .markedDigits isMark isText areDigits short⟩

/-- Whatever is accepted is meant for a number. -/
theorem exists_means_of_ofRaw
    (isWord : ofRaw raw = .ok word) :
    ∃ n, Means raw n := by
  have fits {content : Bytes} (isWord : ofBytes content = .ok word) :
      content.length ≤ slotSize := by
    unfold ofBytes at isWord
    split at isWord
    · cases isWord
    · next notLong =>
        exact Nat.le_of_not_lt notLong
  cases raw with
  | int n =>
      simp only [ofRaw] at isWord
      split at isWord
      · next inside =>
          rw [inSlotSpace_iff, slotModulus_eq] at inside
          obtain ⟨number, rfl⟩ := Int.eq_ofNat_of_zero_le inside.1
          exact ⟨number, .number (by exact_mod_cast inside.2)⟩
      · cases isWord
  | text s =>
      simp only [ofRaw] at isWord
      split at isWord
      · next content isContent =>
          exact exists_means_of_ofHex? isContent (fits isWord)
      · cases isWord
  | bytes content =>
      exact ⟨_, .bytes (fits isWord)⟩
  | _ =>
      cases isWord

/-- A number that a raw value is meant for is written in a word. -/
theorem Means.lt
    (isMeant : Means raw n) :
    n < 256 ^ slotSize := by
  have ofDigits_lt {digits : List Char} {values : List Nat}
      (areDigits : List.Forall₂ (Numeral.IsDigit 16) digits values)
      (short : digits.length ≤ 64) :
      Nat.ofDigits 16 values.reverse < 16 ^ 64 := by
    have areSmall : ∀ value ∈ values, value < 16 :=
      ((List.forall₂_and_left _ _).mp
        (areDigits.flip.imp fun value c isDigit =>
          ⟨isDigit.isSmall, isDigit⟩)).1
    have areSmallBackwards : ∀ value ∈ values.reverse, value < 16 := by
      simpa using areSmall
    refine (Nat.ofDigits_lt_base_pow_length
      (by decide) areSmallBackwards).trans_le ?_
    rw [List.length_reverse, ← areDigits.length_eq]
    exact Nat.pow_le_pow_right (by decide) short
  cases isMeant with
  | number below =>
      exact below
  | digits isText areDigits short =>
      exact ofDigits_lt areDigits short
  | markedDigits isMark isText areDigits short =>
      exact ofDigits_lt areDigits short
  | bytes short =>
      exact (Bytes.toNat_lt _).trans_le (Nat.pow_le_pow_right (by decide) short)

/-- A window of a word is the number of the word, shifted and masked. -/
theorem window_of_whole
    {offset size : Nat}
    (wholeWord : word.length = slotSize)
    (positive : 0 < size)
    (inSlot : offset + size ≤ slotSize) :
    ∃ data,
      window word offset size = .ok data ∧
        data.length = size ∧
        data.toNat = (word.toNat >>> (8 * offset)) % 2 ^ (8 * size) := by
  have inside :
      ¬ ((offset : Int) < 0 ∨ (size : Int) ≤ 0 ∨
        (offset + size : Int) > slotSize) := by
    omega
  have isStart :
      ((slotSize : Int) - offset - size).toNat =
        slotSize - (offset + size) := by
    omega
  have behind : slotSize - (slotSize - (offset + size)) = offset + size :=
    Nat.sub_sub_self inSlot
  refine
    ⟨_, by rw [window, if_neg (not_not.mpr wholeWord), if_neg inside], ?_, ?_⟩
  · rw [isStart, Int.toNat_natCast, List.length_take, List.length_drop,
      wholeWord, behind]
    omega
  · rw [isStart, Int.toNat_natCast, Bytes.toNat_take, Bytes.toNat_drop,
      List.length_drop, wholeWord, behind, Nat.add_sub_cancel, pow_add,
      Nat.mod_mul_right_div_self, Nat.shiftRight_eq_div_pow, pow_mul, pow_mul]
    rfl

/--
A raw value that is meant for no number is a failed read if the message can be
written.
-/
theorem exists_fault_of_raw
    (meansNothing : ∀ n, ¬ Means raw n) :
    ∃ fault,
      ofRaw raw = .error fault ∧
        (fault.family? = some "StorageIOError" ↔
          ∀ number, raw = .int number → Value.canWriteInt number) := by
  cases isWord : ofRaw raw with
  | ok word =>
      obtain ⟨n, isMeant⟩ := exists_means_of_ofRaw isWord
      exact absurd isMeant (meansNothing n)
  | error fault =>
      refine ⟨fault, rfl, fun isReported number isInt => ?_, fun canWrite =>
        family?_of_ofRaw canWrite isWord⟩
      subst isInt
      simp only [ofRaw] at isWord
      split at isWord
      · cases isWord
      · cases isWord
        by_contra notWritable
        simp [Fault.family?, Fault.hasMessage, Fault.shownValues,
          ReadFault.shownValues, Value.canShow, notWritable] at isReported

/-- A window that leaves its word is reported if its place can be written. -/
theorem exists_fault_of_window
    {offset size : Int}
    (wholeWord : word.length = slotSize)
    (outside : ¬ (0 ≤ offset ∧ 1 ≤ size ∧ offset + size ≤ slotSize)) :
    ∃ fault,
      window word offset size = .error fault ∧
        (fault.family? = some "SchemaError" ↔
          Value.canWriteInt offset ∧ Value.canWriteInt size) := by
  have leaves : offset < 0 ∨ size ≤ 0 ∨ offset + size > slotSize := by
    omega
  refine ⟨_, by rw [window, if_neg (not_not.mpr wholeWord), if_pos leaves], ?_⟩
  simp [Fault.family?, Fault.hasMessage, Fault.shownValues,
    SchemaFault.shownValues, Value.canShow, Fault.causeFamily?, and_comm]

/--
Windows of words are numbers that are shifted and masked.

Whatever raw value is meant for a number, the windows of its word that do not
leave it write the number shifted by their offset and masked to their size.
All other raw values and all other windows are refused, with the fault that is
promised exactly if the integers that the message shows can be written.
-/
theorem window_of_raw
    (raw : Value)
    (offset size : Int) :
    (∀ n, Means raw n →
        0 ≤ offset → 1 ≤ size → offset + size ≤ 32 →
          ∃ word data,
            ofRaw raw = .ok word ∧
              window word offset size = .ok data ∧
              data.length = size.toNat ∧
              data.toNat = (n >>> (8 * offset.toNat)) % 2 ^ (8 * size.toNat)) ∧
      ((∀ n, ¬ Means raw n) →
        ∃ fault,
          ofRaw raw = .error fault ∧
            (fault.family? = some "StorageIOError" ↔
              ∀ number, raw = .int number → Value.canWriteInt number)) ∧
      ∀ word, ofRaw raw = .ok word →
        ¬ (0 ≤ offset ∧ 1 ≤ size ∧ offset + size ≤ 32) →
          ∃ fault,
            window word offset size = .error fault ∧
              (fault.family? = some "SchemaError" ↔
                Value.canWriteInt offset ∧ Value.canWriteInt size) := by
  refine ⟨?_, exists_fault_of_raw, ?_⟩
  · intro n isMeant offsetNonneg positive inSlot
    obtain ⟨place, rfl⟩ := Int.eq_ofNat_of_zero_le offsetNonneg
    obtain ⟨count, rfl⟩ := Int.eq_ofNat_of_zero_le (Int.le_of_lt positive)
    have isNumber : Bytes.toNat (ofNat n) = n := by
      rw [ofNat, Bytes.toNat_ofNat, Nat.mod_eq_of_lt isMeant.lt]
    have wholeWord : (ofNat n).length = slotSize :=
      Bytes.length_ofNat slotSize n
    have fits : place + count ≤ slotSize := by
      rw [slotSize]
      omega
    obtain ⟨data, isData, isLength, isWindow⟩ :=
      window_of_whole wholeWord (Int.ofNat_lt.mp positive) fits
    refine ⟨ofNat n, data, isMeant.ofRaw_eq, isData, isLength, ?_⟩
    rw [isNumber] at isWindow
    exact isWindow
  · intro word isWord outside
    exact exists_fault_of_window (length_of_ofRaw isWord) outside

/--
An odd number of digits in both letter cases behind a mark is a raw value as
any other.
-/
theorem window_of_markedDigits :
    Means (.text "0X7aB") 1963 ∧
      (∃ word data,
        ofRaw (.text "0X7aB") = .ok word ∧
          window word 1 1 = .ok data ∧
          data.length = 1 ∧
          data.toNat = 7) ∧
      (∃ fault, ofRaw (.text "wei") = .error fault ∧
        fault.family? = some "StorageIOError") ∧
      ∃ fault,
        window (ofNat 1963) 31 2 = .error fault ∧
          fault.family? = some "SchemaError" := by
  have isMeant : Means (.text "0X7aB") 1963 :=
    @Means.markedDigits "0X7aB" 'X' ['7', 'a', 'B'] [7, 10, 11] (.inr rfl) rfl
      (.cons (by decide) (.cons (by decide) (.cons (by decide) .nil)))
        (by decide)
  have meansNothing : ∀ n, ¬ Means (.text "wei") n := by
    intro n meansNumber
    have isError : (ofRaw (.text "wei")).toOption = none := by
      decide +kernel
    rw [meansNumber.ofRaw_eq] at isError
    cases isError
  obtain ⟨isWindow, -, -⟩ := window_of_raw (.text "0X7aB") 1 1
  obtain ⟨-, isRefused, -⟩ := window_of_raw (.text "wei") 1 1
  obtain ⟨-, -, leavesWord⟩ := window_of_raw (.text "0X7aB") 31 2
  obtain ⟨refusal, isRefusal, refusalFamily⟩ := isRefused meansNothing
  obtain ⟨fault, isFault, faultFamily⟩ :=
    leavesWord _ isMeant.ofRaw_eq (by decide)
  exact ⟨isMeant, isWindow 1963 isMeant (by decide) (by decide) (by decide),
    ⟨refusal, isRefusal, refusalFamily.mpr fun _ isInt => by cases isInt⟩,
    fault, isFault, faultFamily.mpr (by decide +kernel)⟩

/--
An integer with more digits than can be written is refused with another fault
than promised, as a raw value and as the offset of a window.
-/
theorem refused_without_message :
    (∀ n, ¬ Means (.int (10 ^ 4300)) n) ∧
      (∃ fault,
        ofRaw (.int (10 ^ 4300)) = .error fault ∧
          fault.family? ≠ some "StorageIOError") ∧
      ∃ fault,
        window (ofNat 0) (10 ^ 4300) 1 = .error fault ∧
          fault.family? ≠ some "SchemaError" := by
  have outside : inSlotSpace (10 ^ 4300) = false := by
    decide +kernel
  have isRefused :
      ofRaw (.int (10 ^ 4300)) =
        .error (.read (.valueOutOfRange (10 ^ 4300))) := by
    simp only [ofRaw, outside, Bool.false_eq_true, ↓reduceIte]
  have leavesWord :
      window (ofNat 0) (10 ^ 4300) 1 =
        .error (.schema (.windowOutsideSlot 1 (10 ^ 4300))) := by
    rw [window, if_neg (by decide), if_pos (by decide +kernel)]
  refine ⟨?_, ⟨_, isRefused, by decide +kernel⟩, _,
    leavesWord, by decide +kernel⟩
  intro n isMeant
  rw [isMeant.ofRaw_eq] at isRefused
  cases isRefused

end Word

end EvmStorage
