import EvmStorage.Proofs.KeySpelling
import EvmStorage.Proofs.RawWords

namespace EvmStorage

/-!
# Keys that are refused

A key of an elementary type leads to a slot or is refused, and nothing else
happens.  The keys that are values of the type lead to a slot.  So do some that
are none: whatever is given for a truth value counts as one or the other, apart
from texts that write no number, and a number of forty hex digits is taken for
an address.  All other keys are refused as invalid, by a message that shows
them.
-/

namespace Bytes

/--
Whether a text consists of so many hex digits, behind a mark or without one.
-/
structure HasHexDigits
    (s : String)
    (count : Nat) :
    Prop where
  length_eq : (dropHexMark s.toList).length = count
  areDigits : ∀ c ∈ dropHexMark s.toList, (hexValue? c).isSome

variable {s : String} {content : Bytes} {count : Nat}

/-- The bytes of hex digits are read, one for two of them. -/
theorem HasHexDigits.exists_ofHex?
    (isHex : HasHexDigits s count) :
    ∃ content, ofHex? s = some content ∧ content.length = (count + 1) / 2 := by
  obtain ⟨rfl, areDigits⟩ := isHex
  have values :
      ∀ c ∈ dropHexMark s.toList, ∃ value, Numeral.IsDigit 16 c value := by
    intro c isIn
    obtain ⟨value, isValue⟩ := Option.isSome_iff_exists.mp (areDigits c isIn)
    exact ⟨value, Numeral.isDigit_of_hexValue? isValue⟩
  obtain ⟨_, areValues⟩ := Outcome.exists_forall₂ values
  obtain ⟨content, isContent, isLength, -⟩ := exists_content_of_ofHex? areValues
  exact ⟨content, isContent, isLength⟩

/-- What bytes are read from consists of hex digits, two for each of them. -/
theorem exists_hasHexDigits
    (isRead : ofHex? s = some content) :
    ∃ count, HasHexDigits s count ∧ content.length = (count + 1) / 2 := by
  obtain ⟨values, areDigits⟩ := exists_values_of_ofHex? isRead
  obtain ⟨other, isOther, isLength, -⟩ := exists_content_of_ofHex? areDigits
  obtain rfl := Option.some.inj (isRead.symm.trans isOther)
  exact ⟨_, ⟨rfl, Numeral.isSome_hexValue?_of_areDigits areDigits le_rfl⟩,
    isLength⟩

end Bytes

/-- A text is read as an address exactly if it consists of forty hex digits. -/
theorem Address.exists_ofText?_iff
    {s : String} :
    (∃ content, ofText? s = some content) ↔
      Bytes.HasHexDigits s (2 * size) := by
  have sameBytes
      (isLength : (dropHexMark s.toList).length = 2 * size) :
      ofText? s = Bytes.ofHex? s := by
    simp only [ofText?, Bytes.ofHex?, isLength, Nat.mul_mod_right, ↓reduceIte]
  constructor
  · rintro ⟨content, isRead⟩
    by_cases isLength : (dropHexMark s.toList).length = 2 * size
    · rw [sameBytes isLength] at isRead
      obtain ⟨count, isHex, -⟩ := Bytes.exists_hasHexDigits isRead
      exact ⟨isLength, isHex.areDigits⟩
    · simp [ofText?, isLength] at isRead
  · intro isHex
    obtain ⟨content, isRead, -⟩ := isHex.exists_ofHex?
    exact ⟨content, (sameBytes isHex.length_eq).trans isRead⟩

namespace Key

variable {hash : Digest} {key : Value} {name : String}

/--
Whether a computation that is given a key returns a value, or refuses the key.

The message of the refusal can be written exactly if the key can be shown.
-/
inductive Judges (key : Value) : Except Fault α → Prop where
  | ok
      (result : α) :
      Judges key (.ok result)
  | refused
      {cause : InvalidKeyFault}
      (shows : cause.shownValues.all Value.canShow = key.canShow) :
      Judges key (.error (.invalidKey cause))

namespace Judges

theorem bind
    {computation : Except Fault α}
    {next : α → Except Fault β}
    (judges : Judges key computation)
    (goesOn : ∀ result, Judges key (next result)) :
    Judges key (computation >>= next) := by
  cases judges with
  | ok result =>
      exact goesOn result
  | refused shows =>
      exact .refused shows

theorem map
    {computation : Except Fault α}
    (judges : Judges key computation)
    (change : α → β) :
    Judges key (computation.map change) := by
  cases judges with
  | ok result =>
      exact .ok _
  | refused shows =>
      exact .refused shows

end Judges

theorem judges_invalid (name : String) :
    Judges key (invalid name key : Except Fault α) :=
  .refused (by simp [InvalidKeyFault.shownValues])

theorem judges_notEncodable (name : String) :
    Judges key (.error
      (.invalidKey (.notEncodable key name)) : Except Fault α) :=
  .refused (by simp [InvalidKeyFault.shownValues])

theorem judges_ofText : Judges key (ofText key) := by
  unfold ofText
  split
  · exact .ok _
  · exact .ok _
  · exact judges_invalid _

theorem judges_ofBytes : Judges key (ofBytes key) := by
  unfold ofBytes
  split
  · split
    · exact .ok _
    · exact .refused (by simp [InvalidKeyFault.shownValues, Value.canShow])
  · exact .ok _
  · exact judges_invalid _

theorem judges_ofAddress : Judges key (ofAddress hash key) := by
  -- the message shows the hex text of bytes, which can be written as they can
  have sameShown : (withHexText key).canShow = key.canShow := by
    unfold withHexText
    split
    · simp [Value.canShow]
    · rfl
  unfold ofAddress
  split
  · exact .ok _
  · exact .refused (by simp [InvalidKeyFault.shownValues, sameShown])

theorem judges_ofNumber (name : String) :
    Judges key (ofNumber name key) := by
  unfold ofNumber
  split
  · split
    · exact .ok _
    · exact judges_invalid _
  · exact .ok _

theorem judges_ofFixedBytes (name : String) :
    Judges key (ofFixedBytes name key) := by
  unfold ofFixedBytes
  split
  · split
    · exact .ok _
    · exact judges_invalid _
  · exact .ok _

/-- A key is brought into the spelling that is encoded, or refused. -/
theorem judges_coerce (name : String) :
    Judges key (coerce hash name key) := by
  unfold coerce
  split
  · exact judges_ofText.map _
  · exact judges_ofBytes.map _
  · exact judges_ofAddress.map _
  · exact (judges_ofNumber name).map _
  · exact judges_ofNumber name
  · exact judges_ofFixedBytes name
  · exact .ok _

/--
A key of an elementary type that has a word denotes a value with this word.
-/
theorem WordType.IsElementary.exists_wordOf_of_keyBytes
    {type : WordType}
    {content : Bytes}
    (elementary : type.IsElementary)
    (isContent : keyBytes hash type.name key = .ok content) :
    ∃ value, Denotes type.form key value ∧ WordOf type value content := by
  obtain ⟨isNamed, isForm, notWhole⟩ := elementary.named
  have hasForm : Form.ofName type.name ≠ .other := by
    rw [isForm]
    cases type <;> nofun
  rcases exists_denotes_of_keyBytes hasForm isContent with
    ⟨isWhole, -⟩ | ⟨other, value, isOther, -, denotes, isWord⟩
  · exact absurd (notWhole.symm.trans isWhole) Bool.false_ne_true
  · obtain rfl := Option.some.inj (isNamed.symm.trans isOther)
    exact ⟨value, denotes, isWord⟩

namespace Elementary

/-- Whether a key is an integer, or a text that is read as one. -/
inductive ReadAs : Value → Int → Prop where
  | int
      (n : Int) :
      ReadAs (.int n) n
  | text
      {s : String}
      {n : Int}
      (isNumeral : Numeral.ofText? s = some n) :
      ReadAs (.text s) n

/-- The keys that are values of a type. -/
inductive Takes : Elementary → Value → Prop where
  | uint
      {bits : Nat}
      {n : Int}
      {key : Value}
      (reads : ReadAs key n)
      (nonneg : 0 ≤ n)
      (below : n < 2 ^ bits) :
      Takes (.word (.uint bits)) key
  | int
      {bits : Nat}
      {n : Int}
      {key : Value}
      (reads : ReadAs key n)
      (above : -2 ^ (bits - 1) ≤ n)
      (below : n < 2 ^ (bits - 1)) :
      Takes (.word (.int bits)) key
  | flag
      (flag : Bool) :
      Takes (.word .bool) (.bool flag)
  | flagNumber
      {n : Int}
      {key : Value}
      (reads : ReadAs key n)
      (isFlag : n = 0 ∨ n = 1) :
      Takes (.word .bool) key
  | address
      {content : Bytes}
      (isAddress : content.length = Address.size) :
      Takes (.word .address) (.bytes content)
  | addressText
      {s : String}
      (isHex : Bytes.HasHexDigits s (2 * Address.size)) :
      Takes (.word .address) (.text s)
  | fixedBytes
      {size : Nat}
      {content : Bytes}
      (short : content.length ≤ size) :
      Takes (.word (.fixedBytes size)) (.bytes content)
  | fixedBytesText
      {size count : Nat}
      {s : String}
      (notEmpty : s.isEmpty = false)
      (isHex : Bytes.HasHexDigits s count)
      (short : count ≤ 2 * size) :
      Takes (.word (.fixedBytes size)) (.text s)
  | string
      (s : String) :
      Takes .string (.text s)
  | stringBytes
      (content : Bytes) :
      Takes .string (.bytes content)
  | bytes
      (content : Bytes) :
      Takes .bytes (.bytes content)
  | bytesText
      {count : Nat}
      {s : String}
      (isHex : Bytes.HasHexDigits s count) :
      Takes .bytes (.text s)

/--
The keys that lead to a slot whether they are values of the type or not.

Truth values are told by anything but a text that is no number, and a number is
an address if its hex digits without leading zeros are forty.
-/
inductive LetsThrough : Elementary → Value → Prop where
  | flag
      {key : Value}
      (readable : ∀ s, key = .text s → (Numeral.ofText? s).isSome) :
      LetsThrough (.word .bool) key
  | addressNumber
      {n : Int}
      (above : 16 ^ (2 * Address.size - 1) ≤ n)
      (below : n < 16 ^ (2 * Address.size)) :
      LetsThrough (.word .address) (.int n)

variable {type : Elementary} {value : Value} {content : Bytes}

/-- A key with hashed bytes is a value of its type, or let through. -/
theorem takes_or_letsThrough_of_hashes
    (denotes : Denotes type.form key value)
    (isContent : type.Hashes value content) :
    type.Takes key ∨ type.LetsThrough key := by
  cases isContent with
  | string =>
      cases denotes with
      | text s =>
          exact .inl (.string s)
      | textBytes =>
          exact .inl (.stringBytes _)
  | bytes =>
      cases denotes with
      | bytes =>
          exact .inl (.bytes _)
      | bytesHex isRead =>
          obtain ⟨count, isHex, -⟩ := Bytes.exists_hasHexDigits isRead
          exact .inl (.bytesText isHex)
  | word isWord =>
      cases isWord with
      | address isAddress =>
          cases denotes with
          | address =>
              exact .inl (.address isAddress)
          | addressText isRead =>
              exact .inl (.addressText
                (Address.exists_ofText?_iff.mp ⟨_, isRead⟩))
          | addressNumber isRead =>
              obtain ⟨⟨above, below⟩, -⟩ :=
                Option.ite_none_right_eq_some.mp isRead
              exact .inr (.addressNumber above below)
      | bool =>
          cases denotes with
          | flag notText =>
              exact .inr (.flag fun s isKey => absurd isKey (notText s))
          | flagNumeral isNumeral =>
              refine .inr (.flag fun s isKey => ?_)
              cases isKey
              simp [isNumeral]
      | uint nonneg below =>
          cases denotes with
          | integer =>
              exact .inl (.uint (.int _) nonneg below)
          | numeral isNumeral =>
              exact .inl (.uint (.text isNumeral) nonneg below)
      | int above below =>
          cases denotes with
          | integer =>
              exact .inl (.int (.int _) above below)
          | numeral isNumeral =>
              exact .inl (.int (.text isNumeral) above below)
      | fixedBytes short =>
          cases denotes with
          | fixedBytes =>
              exact .inl (.fixedBytes short)
          | fixedBytesHex notEmpty isRead =>
              obtain ⟨count, isHex, isLength⟩ :=
                Bytes.exists_hasHexDigits isRead
              exact .inl (.fixedBytesText notEmpty isHex (by omega))

/-- What is let through has hashed bytes. -/
theorem LetsThrough.exists_hashes
    (letsThrough : type.LetsThrough key) :
    ∃ value content,
      Denotes type.form key value ∧ type.Hashes value content := by
  cases letsThrough with
  | flag readable =>
      by_cases isText : ∃ s, key = .text s
      · obtain ⟨s, rfl⟩ := isText
        obtain ⟨n, isNumeral⟩ := Option.isSome_iff_exists.mp (readable s rfl)
        exact ⟨_, _, .flagNumeral isNumeral, .word (.bool _)⟩
      · exact ⟨_, _, .flag fun s isKey => isText ⟨s, isKey⟩, .word (.bool _)⟩
  | @addressNumber n above below =>
      have isRead :
          Address.ofInt? n = some (Bytes.ofNat Address.size n.toNat) :=
        if_pos ⟨above, below⟩
      exact ⟨_, _, .addressNumber isRead,
        .word (.address (Address.length_of_ofInt? isRead))⟩

/-- A value of a type has hashed bytes. -/
theorem Takes.exists_hashes
    (takes : type.Takes key) :
    ∃ value content,
      Denotes type.form key value ∧ type.Hashes value content := by
  cases takes with
  | uint reads nonneg below =>
      cases reads with
      | int =>
          exact ⟨_, _, .integer _, .word (.uint nonneg below)⟩
      | text isNumeral =>
          exact ⟨_, _, .numeral isNumeral, .word (.uint nonneg below)⟩
  | int reads above below =>
      cases reads with
      | int =>
          exact ⟨_, _, .integer _, .word (.int above below)⟩
      | text isNumeral =>
          exact ⟨_, _, .numeral isNumeral, .word (.int above below)⟩
  | flag flag =>
      exact LetsThrough.exists_hashes (.flag nofun)
  | flagNumber reads isFlag =>
      refine LetsThrough.exists_hashes (.flag fun s isKey => ?_)
      subst isKey
      cases reads with
      | text isNumeral =>
          simp [isNumeral]
  | address isAddress =>
      exact ⟨_, _, .address isAddress, .word (.address isAddress)⟩
  | addressText isHex =>
      obtain ⟨content, isRead⟩ := Address.exists_ofText?_iff.mpr isHex
      exact ⟨_, _, .addressText isRead,
        .word (.address (Address.length_of_ofText? isRead))⟩
  | fixedBytes short =>
      exact ⟨_, _, .fixedBytes _, .word (.fixedBytes short)⟩
  | fixedBytesText notEmpty isHex short =>
      obtain ⟨content, isRead, isLength⟩ := isHex.exists_ofHex?
      exact ⟨_, _, .fixedBytesHex notEmpty isRead,
        .word (.fixedBytes (by omega))⟩
  | string s =>
      exact ⟨_, _, .text s, .string _⟩
  | stringBytes content =>
      exact ⟨_, _, .textBytes content, .string _⟩
  | bytes content =>
      exact ⟨_, _, .bytes content, .bytes _⟩
  | bytesText isHex =>
      obtain ⟨content, isRead, -⟩ := isHex.exists_ofHex?
      exact ⟨_, _, .bytesHex isRead, .bytes _⟩

/--
A key that has bytes denotes a value of its type that they are hashed for.
-/
theorem IsType.exists_hashes_of_keyBytes
    (isType : type.IsType)
    (isContent : keyBytes hash type.name key = .ok content) :
    ∃ value, Denotes type.form key value ∧ type.Hashes value content := by
  cases type with
  | word type =>
      obtain ⟨value, denotes, isWord⟩ :=
        WordType.IsElementary.exists_wordOf_of_keyBytes isType isContent
      exact ⟨value, denotes, .word isWord⟩
  | string =>
      exact ⟨_,
        (@wholeKey_eq_ok_iff "string" key content (by decide)).mp isContent,
        .string content⟩
  | bytes =>
      exact ⟨_,
        (@wholeKey_eq_ok_iff "bytes" key content (by decide)).mp isContent,
        .bytes content⟩

end Elementary

end Key

section Slots

variable {hash : Digest} {type : Key.Elementary} {key : Value} {slot : Int}

/--
The bytes of a key that is hashed as it is are found, or the key is refused.
-/
theorem judges_wholeKey (name : String) :
    Key.Judges key (wholeKey name key) := by
  unfold wholeKey
  split
  · exact Key.judges_ofText
  · exact Key.judges_ofBytes

/-- A key of a type that exists leads to a slot, or is refused. -/
theorem judges_mappingSlot
    (isType : type.IsType)
    (inside : inSlotSpace slot) :
    Key.Judges key (mappingSlot hash key slot type.name) := by
  unfold mappingSlot
  split
  · refine (judges_wholeKey type.name).bind fun content => ?_
    simp only [Word.ofSlot, inside, ↓reduceIte]
    exact .ok _
  · next notWhole =>
      cases type with
      | word type =>
          obtain ⟨isNamed, -, -⟩ := Key.WordType.IsElementary.named isType
          refine Key.Judges.bind ?_ fun words => .ok _
          unfold keyAndSlotWords
          rw [show Key.WordType.ofName? (Key.Elementary.word type).name =
            some type from isNamed]
          refine (Key.judges_coerce _).bind fun given => ?_
          split
          · rw [if_pos inside]
            exact .ok _
          · exact Key.judges_notEncodable _
      | string | bytes =>
          exact absurd (by decide) notWhole

/--
A key of a type that exists leads to a slot if it is a value of the type, or
let through.
-/
theorem exists_mappingSlot_iff
    (hash : Digest)
    (isType : type.IsType)
    (inside : inSlotSpace slot) :
    (∃ found, mappingSlot hash key slot type.name = .ok found) ↔
      type.Takes key ∨ type.LetsThrough key := by
  simp only [mappingSlot_eq_ok_iff, inside, true_and]
  constructor
  · rintro ⟨_, content, isContent, -⟩
    obtain ⟨value, denotes, isContent⟩ :=
      isType.exists_hashes_of_keyBytes isContent
    exact Key.Elementary.takes_or_letsThrough_of_hashes denotes isContent
  · intro goesThrough
    obtain ⟨value, content, denotes, isContent⟩ :=
      goesThrough.elim Key.Elementary.Takes.exists_hashes
        Key.Elementary.LetsThrough.exists_hashes
    exact ⟨_, content, keyBytes_of_hashes hash isType isContent denotes, rfl⟩

/--
A key that is neither a value of its type nor let through is refused, if it can
be shown.
-/
theorem exists_refusal
    (hash : Digest)
    (isType : type.IsType)
    (inside : inSlotSpace slot)
    (notTaken : ¬ type.Takes key)
    (notLet : ¬ type.LetsThrough key) :
    ∃ fault,
      mappingSlot hash key slot type.name = .error fault ∧
        fault.causeFamily? = some "InvalidKeyError" ∧
        (fault.family? = some "InvalidKeyError" ↔ key.canShow) := by
  have leads := @exists_mappingSlot_iff type key slot hash isType inside
  have judges := @judges_mappingSlot hash type key slot isType inside
  generalize mappingSlot hash key slot type.name = computation at leads judges ⊢
  cases judges with
  | ok result =>
      exact absurd (leads.mp ⟨result, rfl⟩) (not_or.mpr ⟨notTaken, notLet⟩)
  | refused shows =>
      refine ⟨_, rfl, rfl, ?_⟩
      simp only [Fault.family?, Fault.hasMessage, Fault.shownValues, shows]
      cases key.canShow with
      | true =>
          simp [Fault.causeFamily?]
      | false =>
          simp

/--
A key of an elementary type leads to a slot exactly if it is a value of the type
or one of the keys that are let through without being one.

Every other key is refused as invalid, and this is told exactly if the key can
be shown.
-/
theorem mappingSlot_decides_keys
    (hash : Digest)
    (isType : type.IsType)
    (inside : inSlotSpace slot)
    (key : Value) :
    ((∃ found, mappingSlot hash key slot type.name = .ok found) ↔
        type.Takes key ∨ type.LetsThrough key) ∧
      (¬ type.Takes key →
        ¬ type.LetsThrough key →
        ∃ fault,
          mappingSlot hash key slot type.name = .error fault ∧
            fault.causeFamily? = some "InvalidKeyError" ∧
            (fault.family? = some "InvalidKeyError" ↔ key.canShow)) :=
  ⟨exists_mappingSlot_iff hash isType inside, exists_refusal hash isType inside⟩

end Slots

/--
A text that writes a number beyond the signed integers of two bytes is refused.
-/
theorem mappingSlot_of_overflow :
    ∃ fault,
      mappingSlot Keccak.digest (.text " 0X8_000") 5 "int16" = .error fault ∧
        fault.family? = some "InvalidKeyError" := by
  have isName : (Key.Elementary.word (.int 16)).name = "int16" := by
    decide
  have isType : (Key.Elementary.word (.int 16)).IsType :=
    ⟨2, by decide, by decide, rfl⟩
  have notTaken :
      ¬ (Key.Elementary.word (.int 16)).Takes (.text " 0X8_000") := by
    intro taken
    cases taken with
    | int reads above below =>
        cases reads with
        | text isNumeral =>
            have isNumber : Numeral.ofText? " 0X8_000" = some 32768 := by
              decide +kernel
            obtain rfl := Option.some.inj (isNumber.symm.trans isNumeral)
            exact absurd below (by decide)
  obtain ⟨-, refused⟩ :=
    mappingSlot_decides_keys Keccak.digest isType (by decide : inSlotSpace 5)
      (.text " 0X8_000")
  obtain ⟨fault, isFault, -, told⟩ := refused notTaken nofun
  rw [isName] at isFault
  exact ⟨fault, isFault, told.mpr rfl⟩

/--
Keys that are no values of their type and are not refused as invalid: a number
other than zero and one is a truth value, a number is an address, and of a
number that is too long to be written it cannot be told that it is refused.
-/
theorem mappingSlot_of_misfits :
    (¬ (Key.Elementary.word .bool).Takes (.int 2) ∧
        ∃ found, mappingSlot Keccak.digest (.int 2) 0 "bool" = .ok found) ∧
      (¬ (Key.Elementary.word .address).Takes (.int (16 ^ 39)) ∧
        ∃ found,
          mappingSlot Keccak.digest (.int (16 ^ 39)) 0 "address" = .ok found) ∧
      ¬ (Key.Elementary.word (.uint 256)).Takes (.int (10 ^ 4300)) ∧
        ∃ fault,
          mappingSlot Keccak.digest (.int (10 ^ 4300)) 0 "uint256" =
            .error fault ∧
            fault.family? ≠ some "InvalidKeyError" := by
  have inside : inSlotSpace 0 := by
    decide
  have tooLarge :
      ¬ (Key.Elementary.word (.uint 256)).Takes (.int (10 ^ 4300)) := by
    intro taken
    cases taken with
    | uint reads nonneg below =>
        cases reads
        exact absurd below (by decide +kernel)
  refine ⟨⟨?_, ?_⟩, ⟨nofun, ?_⟩, tooLarge, ?_⟩
  · intro taken
    cases taken with
    | flagNumber reads isFlag =>
        cases reads
        exact absurd isFlag (by decide)
  · have isName : (Key.Elementary.word .bool).name = "bool" := by
      decide
    have isType : (Key.Elementary.word .bool).IsType :=
      trivial
    rw [← isName]
    exact (exists_mappingSlot_iff _ isType inside).mpr (.inr (.flag nofun))
  · have isName : (Key.Elementary.word .address).name = "address" := by
      decide
    have isType : (Key.Elementary.word .address).IsType :=
      trivial
    rw [← isName]
    exact (exists_mappingSlot_iff _ isType inside).mpr
      (.inr (.addressNumber (by decide) (by decide)))
  · have isName : (Key.Elementary.word (.uint 256)).name = "uint256" := by
      decide
    have isType : (Key.Elementary.word (.uint 256)).IsType :=
      ⟨32, by decide, by decide, rfl⟩
    rw [← isName]
    obtain ⟨fault, isFault, -, told⟩ :=
      exists_refusal Keccak.digest isType inside tooLarge nofun
    exact ⟨fault, isFault, told.not.mpr (by decide +kernel)⟩

end EvmStorage
