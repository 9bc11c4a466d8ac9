import EvmStorage.Cursor
import EvmStorage.Proofs.ByteString
import EvmStorage.Proofs.HexText
import EvmStorage.Proofs.Outcome
import EvmStorage.Value.Shown

namespace EvmStorage

/-!
# Keys and indexes as text

What stands in the brackets of a path is a text, and a key or an index that is
given as a value of its own may be written as one: an integer in decimal, a
truth value as one or zero, bytes and addresses in hex digits, a text between
quotes.  What is read from such a text is the key or the index itself.
-/

namespace Numeral

/-- A decimal digit is a character of integers. -/
theorem mem_keyChars_of_mem_toDigits
    {n : Nat}
    {c : Char}
    (isIn : c ∈ Nat.toDigits 10 n) :
    c ∈ keyChars := by
  obtain ⟨values, areDigits, _, areSmall, _⟩ :=
    exists_values_of_toDigits (by decide : 1 < 10) n
  rw [areDigits, List.mem_map] at isIn
  obtain ⟨value, isValue, rfl⟩ := isIn
  have areKeyChars : ∀ value < 10, Nat.digitChar value ∈ keyChars := by
    decide +kernel
  exact areKeyChars value (areSmall value isValue)

theorem toString_ne_empty (n : Int) :
    toString n ≠ "" := by
  intro isEmpty
  have isText := toList_toString n
  simp [isEmpty, Nat.toDigits_ne_nil] at isText

theorem mem_keyChars_of_mem_toString
    {n : Int}
    {c : Char}
    (isIn : c ∈ (toString n).toList) :
    c ∈ keyChars := by
  rw [toList_toString] at isIn
  rcases List.mem_append.mp isIn with isSign | isDigit
  · split at isSign
    · rw [List.mem_singleton.mp isSign]
      decide
    · cases isSign
  · exact mem_keyChars_of_mem_toDigits isDigit

/-- The text of an integer writes it, if it is not too long. -/
theorem spells_toString
    {n : Int}
    (canWrite : Value.canWriteInt n) :
    Spells (toString n) n := by
  have short := of_decide_eq_true canWrite
  rw [Value.writableBound_eq] at short
  have fewDigits : (Nat.toDigits 10 n.natAbs).length ≤ maxDecimalDigits :=
    (Nat.length_toDigits_le_iff (by decide) (by decide)).mpr short
  have areDigits := writes_toDigits (by decide : 1 < 10) (by decide) n.natAbs
  refine ⟨[], (toString n).toList, [], by simp, nofun, nofun, ?_⟩
  rw [toList_toString]
  split
  · next negative =>
      have isNegative : Sign.minus.apply n.natAbs = n := by
        simp only [Sign.apply]
        omega
      have writes := WritesInt.decimal .minus areDigits fewDigits
      rwa [isNegative] at writes
  · next notNegative =>
      have isNatural : Sign.none.apply n.natAbs = n := by
        simp only [Sign.apply]
        omega
      have writes := WritesInt.decimal .none areDigits fewDigits
      rwa [isNatural] at writes

/-- An integer is read from its decimal text, if it is not too long. -/
theorem ofText?_toString
    {n : Int}
    (canWrite : Value.canWriteInt n) :
    ofText? (toString n) = some n :=
  ofText?_of_spells (spells_toString canWrite)

end Numeral

namespace Bytes

theorem mem_keyChars_of_mem_toMarkedHex
    {content : Bytes}
    {c : Char}
    (isIn : c ∈ (toMarkedHex content).toList) :
    c ∈ keyChars := by
  rw [toList_toMarkedHex] at isIn
  rcases List.mem_cons.mp isIn with rfl | isIn
  · decide
  · rcases List.mem_cons.mp isIn with rfl | isIn
    · decide
    · obtain ⟨byte, _, isDigit⟩ := List.mem_flatMap.mp isIn
      simp only [List.mem_cons, List.not_mem_nil, or_false] at isDigit
      rcases isDigit with rfl | rfl
      · exact mem_keyChars_of_hexValue? (hexValue?_hexDigit _)
      · exact mem_keyChars_of_hexValue? (hexValue?_hexDigit _)

/-- Bytes are read from their hex text. -/
theorem ofHex?_toMarkedHex (content : Bytes) :
    ofHex? (toMarkedHex content) = some content :=
  (spells_toMarkedHex content).ofHex?_eq

/-- What is read as hex digits consists of hex digits. -/
theorem mem_keyChars_of_ofHexDigits?
    {s : List Char}
    {content : Bytes}
    (isRead : ofHexDigits? s = some content)
    {c : Char}
    (isIn : c ∈ s) :
    c ∈ keyChars := by
  induction s using ofHexDigits?.induct generalizing content with
  | case1 =>
      cases isIn
  | case2 =>
      cases isRead
  | case3 high low rest inductionHypothesis =>
      simp only [ofHexDigits?, Option.bind_eq_bind, Option.bind_eq_some_iff]
        at isRead
      obtain ⟨upper, isUpper, lower, isLower, bytes, areBytes, _⟩ := isRead
      rcases List.mem_cons.mp isIn with rfl | isIn
      · exact mem_keyChars_of_hexValue? isUpper
      · rcases List.mem_cons.mp isIn with rfl | isIn
        · exact mem_keyChars_of_hexValue? isLower
        · exact inductionHypothesis areBytes isIn

end Bytes

namespace Address

/-- An address is read from its hex text. -/
theorem ofText?_toMarkedHex
    {content : Bytes}
    (isAddress : content.length = size) :
    ofText? (Bytes.toMarkedHex content) = some content :=
  ofText?_of_spells (Bytes.spells_toMarkedHex content) isAddress

/-- The text of an address has a mark and hex digits only. -/
theorem mem_keyChars_of_ofText?
    {text : String}
    {content : Bytes}
    (isRead : ofText? text = some content)
    {c : Char}
    (isIn : c ∈ text.toList) :
    c ∈ keyChars := by
  have isMarkOrDigit : c ∈ ['0', 'x', 'X'] ∨ c ∈ dropHexMark text.toList := by
    unfold dropHexMark
    split
    · next marked =>
        simp only [marked, List.mem_cons] at isIn ⊢
        tauto
    · next marked =>
        simp only [marked, List.mem_cons] at isIn ⊢
        tauto
    · exact .inr isIn
  simp only [ofText?] at isRead
  split at isRead
  · rcases isMarkOrDigit with isMark | isDigit
    · have areKeyChars : ∀ c ∈ ['0', 'x', 'X'], c ∈ keyChars :=
        List.forall_iff_forall_mem.mp (by decide)
      exact areKeyChars c isMark
    · exact Bytes.mem_keyChars_of_ofHexDigits? isRead isDigit
  · cases isRead

end Address

namespace Path

/-- Characters of integers and hex digits stand in brackets as they are. -/
theorem bracketContent_of_keyChars
    {s : List Char}
    (areKeyChars : ∀ c ∈ s, c ∈ keyChars) :
    bracketContent s = String.ofList s := by
  have stripped : Text.strip s = s :=
    dropEnds_of_forall fun c isIn => (keyChars_facts c (areKeyChars c isIn)).1
  have unquoted : stripQuotes s = s :=
    dropEnds_of_forall fun c isIn => (keyChars_facts c (areKeyChars c isIn)).2.1
  rw [bracketContent, stripped, unquoted]

/-- Between quotes a text stands as it is. -/
theorem bracketContent_of_quoted
    {text : String}
    (first : ∀ c ∈ text.toList.head?, isQuote c = false)
    (last : ∀ c ∈ text.toList.getLast?, isQuote c = false) :
    bracketContent ("\"" ++ text ++ "\"").toList = text := by
  have isText :
      ("\"" ++ text ++ "\"").toList = '"' :: (text.toList ++ ['"']) := by
    simp
  have stripped :
      Text.strip ('"' :: (text.toList ++ ['"'])) =
        '"' :: (text.toList ++ ['"']) := by
    apply dropEnds_eq_self
    · intro c isFirst
      cases isFirst
      decide
    · intro c isLast
      simp only [← List.cons_append, List.getLast?_concat, Option.mem_some_iff]
        at isLast
      subst isLast
      decide
  have areQuotes : ∀ c ∈ ['"'], isQuote c :=
    List.forall_mem_singleton.mpr (by decide)
  have unquoted : stripQuotes ('"' :: (text.toList ++ ['"'])) = text.toList :=
    Stripped.dropEnds_eq
      { around := ⟨['"'], ['"'], rfl, areQuotes, areQuotes⟩
        first := first
        last := last }
  rw [isText, bracketContent, stripped, unquoted, String.ofList_toList]

end Path

/-- Integers are indexes, written in decimal or not. -/
theorem Position.readIndex_toString
    {index : Int}
    (short : Value.canWriteInt index) :
    readIndex (.text (toString index)) = readIndex (.int index) := by
  simp only [readIndex, Numeral.ofText?_toString short]

namespace Key

/-- How a key of a form can be written between brackets. -/
inductive WrittenAs : Form → Value → String → Prop where
  | integer
      (n : Int) :
      WrittenAs .integer (.int n) (toString n)
  | bool
      (flag : Bool) :
      WrittenAs .bool (.bool flag) (if flag then "1" else "0")
  | addressBytes
      {content : Bytes}
      (isAddress : content.length = Address.size) :
      WrittenAs .address (.bytes content) (Bytes.toMarkedHex content)
  | addressText
      {given text : String}
      {content : Bytes}
      (isGiven : Address.ofText? given = some content)
      (isText : Address.ofText? text = some content) :
      WrittenAs .address (.text given) text
  | bytes
      (content : Bytes) :
      WrittenAs .bytes (.bytes content) (Bytes.toMarkedHex content)
  | fixedBytes
      (content : Bytes) :
      WrittenAs .fixedBytes (.bytes content) (Bytes.toMarkedHex content)
  | string
      {text : String}
      (notEmpty : text ≠ "")
      (noBracket : ']' ∉ text.toList)
      (first : ∀ c ∈ text.toList.head?, Path.isQuote c = false)
      (last : ∀ c ∈ text.toList.getLast?, Path.isQuote c = false) :
      WrittenAs .string (.text text) ("\"" ++ text ++ "\"")

variable {hash : Digest} {name : String} {form : Form} {key : Value}
  {text : String}

/--
What is written for a key other than a text is not empty, and without quotes.
-/
theorem WrittenAs.areKeyChars
    (written : WrittenAs form key text)
    (notString : form ≠ .string) :
    text ≠ "" ∧ ∀ c ∈ text.toList, c ∈ keyChars := by
  have hexText (content : Bytes) :
      Bytes.toMarkedHex content ≠ "" ∧
        ∀ c ∈ (Bytes.toMarkedHex content).toList, c ∈ keyChars := by
    refine ⟨?_, fun c => Bytes.mem_keyChars_of_mem_toMarkedHex⟩
    intro isEmpty
    have := Bytes.toList_toMarkedHex content
    simp [isEmpty] at this
  cases written with
  | integer n =>
      exact ⟨Numeral.toString_ne_empty n,
        fun c => Numeral.mem_keyChars_of_mem_toString⟩
  | bool flag =>
      cases flag <;>
        exact ⟨by decide, List.forall_iff_forall_mem.mp (by decide)⟩
  | addressBytes isAddress =>
      exact hexText _
  | addressText isGiven isText =>
      refine ⟨?_, fun c => Address.mem_keyChars_of_ofText? isText⟩
      rintro rfl
      cases isText
  | bytes content =>
      exact hexText content
  | fixedBytes content =>
      exact hexText content
  | string =>
      exact absurd rfl notString

/--
What is written for a key stands in brackets without being cut, and there is
some of it.
-/
theorem WrittenAs.bracketContent_ne
    (written : WrittenAs form key text) :
    ']' ∉ text.toList ∧ Path.bracketContent text.toList ≠ "" := by
  by_cases isString : form = .string
  · subst isString
    cases written with
    | string notEmpty noBracket first last =>
        refine ⟨by simpa using noBracket, ?_⟩
        rwa [Path.bracketContent_of_quoted first last]
  · obtain ⟨notEmpty, areKeyChars⟩ := written.areKeyChars isString
    constructor
    · intro isIn
      exact absurd rfl (keyChars_facts _ (areKeyChars _ isIn)).2.2.2.2
    · rwa [Path.bracketContent_of_keyChars areKeyChars, String.ofList_toList]

/-- What is written for a key is read as the key. -/
theorem WrittenAs.coerce_eq
    (written : WrittenAs (Form.ofName name) key text)
    (canShow : key.canShow) :
    coerce hash name (.text (Path.bracketContent text.toList)) =
      coerce hash name key := by
  generalize isForm : Form.ofName name = form at written
  by_cases isString : form = .string
  · subst isString
    cases written with
    | string notEmpty noBracket first last =>
        rw [Path.bracketContent_of_quoted first last]
  · obtain ⟨notEmpty, areKeyChars⟩ := written.areKeyChars isString
    rw [Path.bracketContent_of_keyChars areKeyChars, String.ofList_toList]
    simp only [coerce, isForm]
    cases written with
    | integer n =>
        have short : Value.canWriteInt n := by
          simpa [Value.canShow] using canShow
        simp only [ofNumber, Numeral.ofText?_toString short]
    | bool flag =>
        cases flag <;> rfl
    | addressBytes isAddress =>
        rfl
    | addressText isGiven isText =>
        simp only [ofAddress, withHexText, Address.ofValue, isGiven, isText]
    | bytes content =>
        simp only [ofBytes, Bytes.ofHex?_toMarkedHex]
    | fixedBytes content =>
        have isNotEmpty : (Bytes.toMarkedHex content).isEmpty = false := by
          simpa [String.isEmpty_iff] using notEmpty
        simp only [ofFixedBytes, Bytes.ofHex?_toMarkedHex, isNotEmpty,
          Bool.not_false, Option.filter_some, ↓reduceIte]
    | string =>
        exact absurd rfl isString

end Key

section Slots

variable {hash : Digest} {name text : String} {key : Value} {slot found : Int}

/--
A key that is hashed as it is is brought into one spelling like all others.
-/
theorem coerce_of_isHashedWhole
    (isWhole : isHashedWhole name) :
    Key.coerce hash name key = (wholeKey name key).map .bytes := by
  simp only [isHashedWhole, Bool.or_eq_true, decide_eq_true_eq] at isWhole
  rcases isWhole with rfl | rfl
  · simp [Key.coerce, Key.Form.ofName, wholeKey]
  · simp [Key.coerce, Key.Form.ofName, wholeKey]

/--
A key that fills a word has one if it can be encoded, and the slot is one that
exists.
-/
theorem keyAndSlotWords_eq_ok_iff
    {words : Bytes × Bytes} :
    keyAndSlotWords hash key slot name = .ok words ↔
      ∃ type given word,
        Key.WordType.ofName? name = some type ∧
          Key.coerce hash name key = .ok given ∧
          type.encode? given = some word ∧
          inSlotSpace slot ∧
          (word, Word.ofNat slot.toNat) = words := by
  unfold keyAndSlotWords
  cases Key.WordType.ofName? name with
  | none =>
      simp
  | some type =>
      cases isGiven : Key.coerce hash name key with
      | error fault =>
          simp
      | ok given =>
          cases isWord : type.encode? given with
          | none =>
              simp [isWord]
          | some word =>
              by_cases inside : inSlotSpace slot
              · simp [isWord, inside]
              · simp [isWord, inside]

/--
The value under a key lies where it lies under what is written for the key.
-/
theorem mappingSlot_of_writtenAs
    (written : Key.WrittenAs (Key.Form.ofName name) key text)
    (canShow : key.canShow)
    (isSlot : mappingSlot hash key slot name = .ok found) :
    mappingSlot hash (.text (Path.bracketContent text.toList)) slot name =
      .ok found := by
  have sameKey := @Key.WrittenAs.coerce_eq hash name key text written canShow
  unfold mappingSlot at isSlot ⊢
  split at isSlot
  · next isWhole =>
      rw [if_pos isWhole]
      obtain ⟨content, isContent, isSlot⟩ := Outcome.bind_eq_ok_iff.mp isSlot
      have isCoerced : Key.coerce hash name key = .ok (.bytes content) := by
        rw [coerce_of_isHashedWhole isWhole, isContent]
        rfl
      rw [isCoerced, coerce_of_isHashedWhole isWhole, Outcome.map_eq_ok_iff]
        at sameKey
      obtain ⟨other, isOther, sameContent⟩ := sameKey
      cases sameContent
      exact Outcome.bind_eq_ok_iff.mpr ⟨content, isOther, isSlot⟩
  · next notWhole =>
      rw [if_neg notWhole]
      obtain ⟨words, areWords, isSlot⟩ := Outcome.bind_eq_ok_iff.mp isSlot
      refine Outcome.bind_eq_ok_iff.mpr ⟨words, ?_, isSlot⟩
      rw [keyAndSlotWords_eq_ok_iff, ← sameKey] at areWords
      exact keyAndSlotWords_eq_ok_iff.mpr areWords

end Slots

end EvmStorage
