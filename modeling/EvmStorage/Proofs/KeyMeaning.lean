import EvmStorage.Proofs.KeyText
import Mathlib.Tactic.Linarith

namespace EvmStorage

/-!
# What keys denote

A key may be given in several spellings, and what it denotes does not depend on
the one that was chosen.  The bytes that are hashed for a key depend on what it
denotes and on nothing else, and keys of one type that denote different values
have different bytes.

A key denotes what it is taken for when it is hashed, so that a key denotes a
value of its type even where it is none itself.
-/

namespace Bytes

/-- Two hex digits write one byte. -/
theorem length_of_ofHexDigits?
    {s : List Char}
    {content : Bytes}
    (isRead : ofHexDigits? s = some content) :
    s.length = 2 * content.length := by
  induction s using ofHexDigits?.induct generalizing content with
  | case1 =>
      cases isRead
      rfl
  | case2 =>
      cases isRead
  | case3 high low rest inductionHypothesis =>
      simp only [ofHexDigits?, Option.bind_eq_bind, Option.bind_eq_some_iff]
        at isRead
      obtain ⟨upper, _, lower, _, bytes, areBytes, isContent⟩ := isRead
      cases isContent
      have := inductionHypothesis areBytes
      simp only [List.length_cons]
      omega

end Bytes

namespace Address

/-- An address that is read from a text has the size of one. -/
theorem length_of_ofText?
    {text : String}
    {content : Bytes}
    (isRead : ofText? text = some content) :
    content.length = size := by
  simp only [ofText?] at isRead
  split at isRead
  · next isLength =>
      have := Bytes.length_of_ofHexDigits? isRead
      omega
  · cases isRead

/-- An address that is read from a number has the size of one. -/
theorem length_of_ofInt?
    {n : Int}
    {content : Bytes}
    (isRead : ofInt? n = some content) :
    content.length = size := by
  obtain ⟨_, isContent⟩ := Option.ite_none_right_eq_some.mp isRead
  rw [← Option.some.inj isContent, Bytes.length_ofNat]

end Address

namespace Key

/--
The value that a key is taken for, told by the form of the keys of its type.

Texts are denoted by their encoding and addresses by their bytes.  Whatever is
given for a truth value and is no text is taken for its truth, and a number of
forty hex digits is taken for the address that they write.
-/
inductive Denotes : Form → Value → Value → Prop where
  | text
      (s : String) :
      Denotes .string (.text s) (.bytes s.toUTF8.toList)
  | textBytes
      (content : Bytes) :
      Denotes .string (.bytes content) (.bytes content)
  | bytes
      (content : Bytes) :
      Denotes .bytes (.bytes content) (.bytes content)
  | bytesHex
      {s : String}
      {content : Bytes}
      (isHex : Bytes.ofHex? s = some content) :
      Denotes .bytes (.text s) (.bytes content)
  | address
      {content : Bytes}
      (isAddress : content.length = Address.size) :
      Denotes .address (.bytes content) (.bytes content)
  | addressText
      {s : String}
      {content : Bytes}
      (isText : Address.ofText? s = some content) :
      Denotes .address (.text s) (.bytes content)
  | addressNumber
      {n : Int}
      {content : Bytes}
      (isNumber : Address.ofInt? n = some content) :
      Denotes .address (.int n) (.bytes content)
  | flag
      {key : Value}
      (notText : ∀ s, key ≠ .text s) :
      Denotes .bool key (.bool key.truthy)
  | flagNumeral
      {s : String}
      {n : Int}
      (isNumeral : Numeral.ofText? s = some n) :
      Denotes .bool (.text s) (.bool (n != 0))
  | integer
      (n : Int) :
      Denotes .integer (.int n) (.int n)
  | numeral
      {s : String}
      {n : Int}
      (isNumeral : Numeral.ofText? s = some n) :
      Denotes .integer (.text s) (.int n)
  | fixedBytes
      (content : Bytes) :
      Denotes .fixedBytes (.bytes content) (.bytes content)
  | fixedBytesHex
      {s : String}
      {content : Bytes}
      (notEmpty : s.isEmpty = false)
      (isHex : Bytes.ofHex? s = some content) :
      Denotes .fixedBytes (.text s) (.bytes content)

/--
How a value is spelled before it is encoded: addresses as their checked text.
-/
def spelled
    (hash : Digest)
    (form : Form)
    (value : Value) :
    Value :=
  match form, value with
  | .address, .bytes content => .text (Address.checksum hash content)
  | _, _ => value

variable {hash : Digest} {name : String} {key other value : Value}

/-- A key is brought into the one spelling of the value that it denotes. -/
theorem coerce_of_denotes
    (denotes : Denotes (Form.ofName name) key value) :
    coerce hash name key = .ok (spelled hash (Form.ofName name) value) := by
  generalize isForm : Form.ofName name = form at denotes
  unfold coerce
  rw [isForm]
  cases denotes with
  | text | textBytes | bytes | integer | fixedBytes =>
      rfl
  | bytesHex isHex =>
      simp only [ofBytes, isHex]
      rfl
  | address isAddress =>
      simp only [ofAddress, withHexText, Address.ofValue,
        Address.ofText?_toMarkedHex isAddress]
      rfl
  | addressText isText =>
      simp only [ofAddress, withHexText, Address.ofValue, isText]
      rfl
  | addressNumber isNumber =>
      simp only [ofAddress, withHexText, Address.ofValue, isNumber]
      rfl
  | flag notText =>
      cases key with
      | text s =>
          exact absurd rfl (notText s)
      | _ =>
          rfl
  | flagNumeral isNumeral =>
      simp only [ofNumber, isNumeral]
      rfl
  | numeral isNumeral =>
      simp only [ofNumber, isNumeral]
      rfl
  | fixedBytesHex notEmpty isHex =>
      simp only [ofFixedBytes, isHex, notEmpty, Bool.not_false,
        Option.filter_some, ↓reduceIte]
      rfl

/-- The form of the keys of a type that fills a word. -/
def WordType.form : WordType → Form
  | .address => .address
  | .bool => .bool
  | .uint _ | .int _ => .integer
  | .fixedBytes _ => .fixedBytes

/-- Whether a type is no wider than a word. -/
def WordType.Fits : WordType → Prop
  | .uint bits | .int bits => bits ≤ 256
  | .fixedBytes size => size ≤ slotSize
  | .address | .bool => True

/-- The types that have a name are no wider than a word. -/
theorem WordType.fits_of_ofName?
    {type : WordType}
    (isType : WordType.ofName? name = some type) :
    type.Fits := by
  have bits_le {s : List Char} {bits : Nat} (isBits : bitsOf? s = some bits) :
      bits ≤ 256 := by
    unfold bitsOf? at isBits
    split at isBits
    · cases isBits
      exact le_rfl
    · have := (Option.filter_eq_some_iff.mp isBits).2
      simp only [decide_eq_true_eq] at this
      exact this.2
  unfold WordType.ofName? at isType
  split at isType
  · obtain ⟨bits, isBits, rfl⟩ := Option.map_eq_some_iff.mp isType
    exact bits_le isBits
  · obtain ⟨bits, isBits, rfl⟩ := Option.map_eq_some_iff.mp isType
    exact bits_le isBits
  · obtain ⟨size, isSize, rfl⟩ := Option.map_eq_some_iff.mp isType
    simpa [WordType.Fits, slotSize]
      using (Option.filter_eq_some_iff.mp isSize).2
  · split at isType
    · cases isType
      trivial
    · cases isType
  · split at isType
    · cases isType
      trivial
    · split at isType
      · cases isType
        exact (by decide : 24 ≤ slotSize)
      · cases isType

/--
The name of an elementary type that fills a word tells the form of its keys.
-/
theorem WordType.form_of_ofName?
    {type : WordType}
    (isType : WordType.ofName? name = some type)
    (elementary : Form.ofName name ≠ .other) :
    Form.ofName name = type.form := by
  have notText : WordType.ofName? "string" = none := by
    decide
  have notBytes : WordType.ofName? "bytes" = none := by
    decide
  have isAddress : WordType.ofName? "address" = some .address := by
    decide
  have isBool : WordType.ofName? "bool" = some .bool := by
    decide
  unfold Form.ofName at elementary ⊢
  split_ifs at elementary ⊢ with string bytes address bool integer fixedBytes
  · rw [string, notText] at isType
    cases isType
  · rw [bytes, notBytes] at isType
    cases isType
  · rw [address, isAddress] at isType
    cases isType
    rfl
  · rw [bool, isBool] at isType
    cases isType
    rfl
  · simp only [Bool.or_eq_true, String.startsWith_string_iff] at integer
    rcases integer with ⟨rest, isName⟩ | ⟨rest, isName⟩
    · rw [WordType.ofName?, ← isName] at isType
      obtain ⟨bits, _, rfl⟩ := Option.map_eq_some_iff.mp isType
      rfl
    · rw [WordType.ofName?, ← isName] at isType
      obtain ⟨bits, _, rfl⟩ := Option.map_eq_some_iff.mp isType
      rfl
  · obtain ⟨rest, isName⟩ := String.startsWith_string_iff.mp fixedBytes
    rw [WordType.ofName?, ← isName] at isType
    obtain ⟨size, _, rfl⟩ := Option.map_eq_some_iff.mp isType
    rfl
  · exact absurd rfl elementary

/-- A key of a type that fills a word denotes a value, if it can be encoded. -/
theorem exists_denotes_of_encode?
    {type : WordType}
    {given : Value}
    {word : Bytes}
    (isForm : Form.ofName name = type.form)
    (isGiven : coerce hash name key = .ok given)
    (isWord : type.encode? given = some word) :
    ∃ value, Denotes type.form key value := by
  rw [coerce, isForm] at isGiven
  cases type with
  | address =>
      obtain ⟨text, isText, -⟩ := Outcome.map_eq_ok_iff.mp isGiven
      cases key with
      | text s =>
          cases isContent : Address.ofText? s with
          | some content =>
              exact ⟨_, .addressText isContent⟩
          | none =>
              simp [ofAddress, withHexText, Address.ofValue, isContent, invalid]
                at isText
      | bytes content =>
          by_cases isAddress : content.length = Address.size
          · exact ⟨_, .address isAddress⟩
          · have noAddress :
                Address.ofText? (Bytes.toMarkedHex content) = none := by
              have isLength :
                  (Bytes.hexDigits content).length ≠ 2 * Address.size := by
                rw [Bytes.length_hexDigits]
                omega
              simp only [Address.ofText?, Bytes.toList_toMarkedHex, dropHexMark,
                isLength, ↓reduceIte]
            simp [ofAddress, withHexText, Address.ofValue, noAddress, invalid]
              at isText
      | int n =>
          cases isContent : Address.ofInt? n with
          | some content =>
              exact ⟨_, .addressNumber isContent⟩
          | none =>
              simp [ofAddress, withHexText, Address.ofValue, isContent, invalid]
                at isText
      | null | bool | float | list | record | struct =>
          simp [ofAddress, withHexText, Address.ofValue, invalid] at isText
  | bool =>
      by_cases isText : ∃ s, key = .text s
      · obtain ⟨s, rfl⟩ := isText
        cases isNumeral : Numeral.ofText? s with
        | some n =>
            exact ⟨_, .flagNumeral isNumeral⟩
        | none =>
            simp [WordType.form, ofNumber, isNumeral, invalid, Except.map]
              at isGiven
      · exact ⟨_, .flag fun s isKey => isText ⟨s, isKey⟩⟩
  | uint bits | int bits =>
      cases key with
      | text s =>
          cases isNumeral : Numeral.ofText? s with
          | some n =>
              exact ⟨_, .numeral isNumeral⟩
          | none =>
              simp [WordType.form, ofNumber, isNumeral, invalid] at isGiven
      | int n =>
          exact ⟨_, .integer n⟩
      | null | bool | float | bytes | list | record | struct =>
          cases isGiven
          cases isWord
  | fixedBytes size =>
      cases key with
      | text s =>
          cases isHex : Bytes.ofHex? s with
          | some content =>
              cases isEmpty : s.isEmpty with
              | false =>
                  exact ⟨_, .fixedBytesHex isEmpty isHex⟩
              | true =>
                  simp [WordType.form, ofFixedBytes, isHex, isEmpty, invalid]
                    at isGiven
          | none =>
              simp [WordType.form, ofFixedBytes, isHex, invalid] at isGiven
      | bytes content =>
          exact ⟨_, .fixedBytes content⟩
      | null | bool | float | int | list | record | struct =>
          cases isGiven
          cases isWord

/-- The words of the values of the types that fill one. -/
inductive WordOf : WordType → Value → Bytes → Prop where
  | address
      {content : Bytes}
      (isAddress : content.length = Address.size) :
      WordOf .address (.bytes content)
        (List.replicate (slotSize - Address.size) 0 ++ content)
  | bool
      (flag : Bool) :
      WordOf .bool (.bool flag) (Word.ofNat flag.toNat)
  | uint
      {bits : Nat}
      {n : Int}
      (nonneg : 0 ≤ n)
      (below : n < 2 ^ bits) :
      WordOf (.uint bits) (.int n) (Word.ofNat n.toNat)
  | int
      {bits : Nat}
      {n : Int}
      (above : -2 ^ (bits - 1) ≤ n)
      (below : n < 2 ^ (bits - 1)) :
      WordOf (.int bits) (.int n) (Word.ofNat (n % slotModulus).toNat)
  | fixedBytes
      {size : Nat}
      {content : Bytes}
      (short : content.length ≤ size) :
      WordOf (.fixedBytes size) (.bytes content)
        (content ++ List.replicate (slotSize - content.length) 0)

/-- What is encoded for a key is the word of the value that it denotes. -/
theorem Denotes.wordOf
    {type : WordType}
    {word : Bytes}
    (denotes : Denotes type.form key value)
    (isWord : type.encode? (spelled hash type.form value) = some word) :
    WordOf type value word := by
  have ofAddress {content : Bytes}
      (isAddress : content.length = Address.size)
      (isWord :
        WordType.encode? .address (.text (Address.checksum hash content)) =
          some word) :
      WordOf .address (.bytes content) word := by
    simp only [WordType.encode?, Address.ofText?_checksum isAddress,
      Option.map_some, List.leftpad, isAddress] at isWord
    obtain rfl := Option.some.inj isWord
    exact .address isAddress
  have ofInteger {n : Int}
      (isInteger : ∃ bits, type = .uint bits ∨ type = .int bits)
      (isWord : type.encode? (.int n) = some word) :
      WordOf type (.int n) word := by
    obtain ⟨bits, rfl | rfl⟩ := isInteger
    · obtain ⟨⟨nonneg, below⟩, isWord⟩ :=
        Option.ite_none_right_eq_some.mp isWord
      obtain rfl := Option.some.inj isWord
      exact .uint nonneg below
    · obtain ⟨⟨above, below⟩, isWord⟩ := Option.ite_none_right_eq_some.mp isWord
      obtain rfl := Option.some.inj isWord
      exact .int above below
  have ofFixedBytes {size : Nat} {content : Bytes}
      (isWord :
        WordType.encode? (.fixedBytes size) (.bytes content) = some word) :
      WordOf (.fixedBytes size) (.bytes content) word := by
    obtain ⟨short, isWord⟩ := Option.ite_none_right_eq_some.mp isWord
    obtain rfl := Option.some.inj isWord
    exact .fixedBytes short
  cases type with
  | address =>
      cases denotes with
      | address isAddress =>
          exact ofAddress isAddress isWord
      | addressText isText =>
          exact ofAddress (Address.length_of_ofText? isText) isWord
      | addressNumber isNumber =>
          exact ofAddress (Address.length_of_ofInt? isNumber) isWord
  | bool =>
      cases denotes with
      | flag | flagNumeral =>
          obtain rfl := Option.some.inj isWord
          exact .bool _
  | uint bits =>
      cases denotes with
      | integer | numeral =>
          exact ofInteger ⟨bits, .inl rfl⟩ isWord
  | int bits =>
      cases denotes with
      | integer | numeral =>
          exact ofInteger ⟨bits, .inr rfl⟩ isWord
  | fixedBytes size =>
      cases denotes with
      | fixedBytes | fixedBytesHex =>
          exact ofFixedBytes isWord

/-- The word of a value fills a slot. -/
theorem WordOf.length_eq
    {type : WordType}
    {word : Bytes}
    (isWord : WordOf type value word)
    (fits : type.Fits) :
    word.length = slotSize := by
  cases isWord with
  | address isAddress =>
      rw [List.length_append, List.length_replicate, isAddress]
      decide
  | bool | uint | int =>
      exact Bytes.length_ofNat _ _
  | fixedBytes short =>
      have := short.trans fits
      rw [List.length_append, List.length_replicate]
      omega

/-- Numbers below the number of slots have different words. -/
theorem eq_of_word_eq
    {m n : Nat}
    (first : m < 2 ^ 256)
    (second : n < 2 ^ 256)
    (sameWord : Word.ofNat m = Word.ofNat n) :
    m = n := by
  have sameNumber := congrArg Bytes.toNat sameWord
  simp only [Word.ofNat, Bytes.toNat_ofNat] at sameNumber
  have isModulus : (256 : Nat) ^ slotSize = 2 ^ 256 := by
    decide
  rwa [isModulus, Nat.mod_eq_of_lt first, Nat.mod_eq_of_lt second] at sameNumber

/-- Signed integers of at most 256 bits have different words. -/
theorem eq_of_signedWord_eq
    {bits : Nat}
    {m n : Int}
    (fits : bits ≤ 256)
    (mAbove : -2 ^ (bits - 1) ≤ m)
    (mBelow : m < 2 ^ (bits - 1))
    (nAbove : -2 ^ (bits - 1) ≤ n)
    (nBelow : n < 2 ^ (bits - 1))
    (sameWord :
      Word.ofNat (m % slotModulus).toNat = Word.ofNat (n % slotModulus).toNat) :
    m = n := by
  have half : (2 : Int) ^ (bits - 1) ≤ 2 ^ 255 :=
    pow_le_pow_right₀ (by decide) (by omega)
  have isModulus : slotModulus = 2 ^ 256 :=
    rfl
  rw [isModulus] at sameWord
  have sameNumber := eq_of_word_eq (by omega) (by omega) sameWord
  omega

/--
Different values of a type have different words, if its byte strings have its
size.
-/
theorem WordOf.value_eq
    {type : WordType}
    {word otherWord : Bytes}
    (first : WordOf type key word)
    (second : WordOf type other otherWord)
    (sameWord : word = otherWord)
    (fits : type.Fits)
    (firstIsWhole :
      ∀ size content,
        type = .fixedBytes size → key = .bytes content → content.length = size)
    (secondIsWhole :
      ∀ size content,
        type = .fixedBytes size → other = .bytes content →
          content.length = size) :
    key = other := by
  cases first with
  | address isAddress =>
      cases second with
      | address otherIsAddress =>
          rw [List.append_cancel_left sameWord]
  | bool flag =>
      cases second with
      | bool otherFlag =>
          have below (flag : Bool) : flag.toNat < 2 ^ 256 :=
            lt_of_le_of_lt (Bool.toNat_le flag) (by decide)
          have sameNumber :=
            eq_of_word_eq (below flag) (below otherFlag) sameWord
          cases flag with
          | false =>
              cases otherFlag with
              | false =>
                  rfl
              | true =>
                  cases sameNumber
          | true =>
              cases otherFlag with
              | false =>
                  cases sameNumber
              | true =>
                  rfl
  | @uint bits n nonneg isBelow =>
      cases second with
      | @uint _ m otherNonneg otherIsBelow =>
          have bound : (2 : Int) ^ bits ≤ 2 ^ 256 :=
            pow_le_pow_right₀ (by decide) fits
          have sameNumber := eq_of_word_eq (by omega) (by omega) sameWord
          have isSame : n = m := by
            omega
          rw [isSame]
  | int isAbove isBelow =>
      cases second with
      | int otherIsAbove otherIsBelow =>
          rw [eq_of_signedWord_eq fits isAbove isBelow otherIsAbove
            otherIsBelow sameWord]
  | fixedBytes =>
      cases second with
      | fixedBytes =>
          have isLength := firstIsWhole _ _ rfl rfl
          have otherIsLength := secondIsWhole _ _ rfl rfl
          rw [List.append_inj_left sameWord (isLength.trans otherIsLength.symm)]

end Key

/--
The bytes that are hashed for a key that is hashed as it is are those that it
denotes.
-/
theorem wholeKey_eq_ok_iff
    {name : String}
    {key : Value}
    {content : Bytes}
    (isWhole : isHashedWhole name) :
    wholeKey name key = .ok content ↔
      Key.Denotes (Key.Form.ofName name) key (.bytes content) := by
  simp only [isHashedWhole, Bool.or_eq_true, decide_eq_true_eq] at isWhole
  constructor
  · intro isContent
    rcases isWhole with rfl | rfl
    · cases key with
      | text s =>
          cases isContent
          exact .text s
      | bytes =>
          cases isContent
          exact .textBytes content
      | null | bool | int | float | list | record | struct =>
          cases isContent
    · cases key with
      | text s =>
          cases isHex : Bytes.ofHex? s with
          | some bytes =>
              simp only [wholeKey, String.reduceEq, ↓reduceIte, Key.ofBytes,
                isHex] at isContent
              cases isContent
              exact .bytesHex isHex
          | none =>
              simp [wholeKey, Key.ofBytes, isHex] at isContent
      | bytes =>
          cases isContent
          exact .bytes content
      | null | bool | int | float | list | record | struct =>
          cases isContent
  · rcases isWhole with rfl | rfl
    · intro denotes
      cases denotes with
      | text | textBytes =>
          rfl
    · intro denotes
      cases denotes with
      | bytes =>
          rfl
      | bytesHex isHex =>
          simp [wholeKey, Key.ofBytes, isHex]

end EvmStorage
