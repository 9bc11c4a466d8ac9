import EvmStorage.Proofs.RefusedKeys
import Mathlib.Data.List.Nodup

namespace EvmStorage

/-!
# Keys that lead to different slots

Keys of nested mappings that are values of their types lead to the same slot
exactly if they are the same values, one after the other, and the mappings
start at the same slot.  None of the slots is the first one behind an array or
a byte string, apart from the one of an empty text.

Keys that are let through without being values of their types do lead to the
slots of others.
-/

namespace Key.Elementary

variable {type : Elementary} {key value other : Value}

/--
The value of a type that a key is given for.

A byte string of fixed size is given with all of its bytes.
-/
inductive Means : Elementary → Value → Value → Prop where
  | uint
      {bits : Nat}
      {n : Int}
      {key : Value}
      (reads : ReadAs key n)
      (nonneg : 0 ≤ n)
      (below : n < 2 ^ bits) :
      Means (.word (.uint bits)) key (.int n)
  | int
      {bits : Nat}
      {n : Int}
      {key : Value}
      (reads : ReadAs key n)
      (above : -2 ^ (bits - 1) ≤ n)
      (below : n < 2 ^ (bits - 1)) :
      Means (.word (.int bits)) key (.int n)
  | flag
      (flag : Bool) :
      Means (.word .bool) (.bool flag) (.bool flag)
  | flagNumber
      {flag : Bool}
      {key : Value}
      (reads : ReadAs key flag.toNat) :
      Means (.word .bool) key (.bool flag)
  | address
      {content : Bytes}
      (isAddress : content.length = Address.size) :
      Means (.word .address) (.bytes content) (.bytes content)
  | addressText
      {s : String}
      {content : Bytes}
      (isText : Address.ofText? s = some content) :
      Means (.word .address) (.text s) (.bytes content)
  | fixedBytes
      {size : Nat}
      {content : Bytes}
      (isFull : content.length = size) :
      Means (.word (.fixedBytes size)) (.bytes content) (.bytes content)
  | fixedBytesText
      {size : Nat}
      {s : String}
      {content : Bytes}
      (notEmpty : s.isEmpty = false)
      (isHex : Bytes.ofHex? s = some content)
      (isFull : content.length = size) :
      Means (.word (.fixedBytes size)) (.text s) (.bytes content)
  | string
      (s : String) :
      Means .string (.text s) (.bytes s.toUTF8.toList)
  | stringBytes
      (content : Bytes) :
      Means .string (.bytes content) (.bytes content)
  | bytes
      (content : Bytes) :
      Means .bytes (.bytes content) (.bytes content)
  | bytesText
      {s : String}
      {content : Bytes}
      (isHex : Bytes.ofHex? s = some content) :
      Means .bytes (.text s) (.bytes content)

/--
A key that is given for a value of a type is one of the keys that are values of
the type.
-/
theorem Means.takes
    (means : type.Means key value) :
    type.Takes key := by
  cases means with
  | uint reads nonneg below =>
      exact .uint reads nonneg below
  | int reads above below =>
      exact .int reads above below
  | flag flag =>
      exact .flag flag
  | @flagNumber flag key reads =>
      refine .flagNumber reads ?_
      cases flag
      · exact .inl rfl
      · exact .inr rfl
  | address isAddress =>
      exact .address isAddress
  | addressText isText =>
      exact .addressText (Address.exists_ofText?_iff.mp ⟨_, isText⟩)
  | fixedBytes isFull =>
      exact .fixedBytes isFull.le
  | fixedBytesText notEmpty isHex isFull =>
      obtain ⟨count, isDigits, isLength⟩ := Bytes.exists_hasHexDigits isHex
      exact .fixedBytesText notEmpty isDigits (by omega)
  | string s =>
      exact .string s
  | stringBytes content =>
      exact .stringBytes content
  | bytes content =>
      exact .bytes content
  | bytesText isHex =>
      obtain ⟨count, isDigits, -⟩ := Bytes.exists_hasHexDigits isHex
      exact .bytesText isDigits

/-- A key that is given for a value is taken for this value. -/
theorem Means.denotes
    (means : type.Means key value) :
    Denotes type.form key value := by
  cases means with
  | uint reads | int reads =>
      cases reads with
      | int =>
          exact .integer _
      | text isNumeral =>
          exact .numeral isNumeral
  | flag flag =>
      exact .flag nofun
  | @flagNumber flag key reads =>
      have isFlag : ((flag.toNat : Int) != 0) = flag := by
        cases flag <;> rfl
      cases reads with
      | int =>
          have denotes := @Denotes.flag (.int flag.toNat) nofun
          rwa [Value.truthy, isFlag] at denotes
      | text isNumeral =>
          have denotes := Denotes.flagNumeral isNumeral
          rwa [isFlag] at denotes
  | address isAddress =>
      exact .address isAddress
  | addressText isText =>
      exact .addressText isText
  | fixedBytes =>
      exact .fixedBytes _
  | fixedBytesText notEmpty isHex =>
      exact .fixedBytesHex notEmpty isHex
  | string s =>
      exact .text s
  | stringBytes content =>
      exact .textBytes content
  | bytes content =>
      exact .bytes content
  | bytesText isHex =>
      exact .bytesHex isHex

/-- A key that is given for a value is taken for no other value. -/
theorem Means.eq_of_denotes
    (means : type.Means key value)
    (denotes : Denotes type.form key other) :
    value = other := by
  cases means with
  | uint reads | int reads =>
      cases reads with
      | int =>
          cases denotes
          rfl
      | text isNumeral =>
          cases denotes with
          | numeral alsoNumeral =>
              rw [Option.some.inj (isNumeral.symm.trans alsoNumeral)]
  | flag flag =>
      cases denotes
      rfl
  | @flagNumber flag key reads =>
      have isFlag : ((flag.toNat : Int) != 0) = flag := by
        cases flag <;> rfl
      cases reads with
      | int =>
          cases denotes with
          | flag =>
              rw [Value.truthy, isFlag]
      | text isNumeral =>
          cases denotes with
          | flag notText =>
              exact absurd rfl (notText _)
          | flagNumeral alsoNumeral =>
              rw [← Option.some.inj (isNumeral.symm.trans alsoNumeral), isFlag]
  | addressText isText =>
      cases denotes with
      | addressText alsoText =>
          rw [Option.some.inj (isText.symm.trans alsoText)]
  | fixedBytesText notEmpty isHex =>
      cases denotes with
      | fixedBytesHex _ alsoHex =>
          rw [Option.some.inj (isHex.symm.trans alsoHex)]
  | bytesText isHex =>
      cases denotes with
      | bytesHex alsoHex =>
          rw [Option.some.inj (isHex.symm.trans alsoHex)]
  | address | fixedBytes | string | stringBytes | bytes =>
      cases denotes
      rfl

/-- A key that is given for a byte string of fixed size has this size. -/
theorem Means.hasTypeSize
    (isType : type.IsType)
    (means : type.Means key value) :
    HasTypeSize type.name key := by
  intro size content isNamed denotes
  cases type with
  | word type =>
      obtain ⟨alsoNamed, -, -⟩ := WordType.IsElementary.named isType
      cases alsoNamed.symm.trans isNamed
      cases means.eq_of_denotes denotes
      cases means with
      | fixedBytes isFull | fixedBytesText _ _ isFull =>
          exact isFull
  | string | bytes =>
      cases isNamed

/--
The keys without bytes are those that are given for an empty text or byte
string.
-/
theorem IsType.keyBytes_eq_nil_iff
    (hash : Digest)
    (isType : type.IsType) :
    keyBytes hash type.name key = .ok [] ↔
      (type = .string ∨ type = .bytes) ∧ type.Means key (.bytes []) := by
  constructor
  · intro isEmpty
    obtain ⟨value, denotes, isContent⟩ :=
      isType.exists_hashes_of_keyBytes isEmpty
    generalize isNone : ([] : Bytes) = content at isContent ⊢
    cases isContent with
    | word isWord =>
        obtain ⟨isNamed, -, -⟩ := WordType.IsElementary.named isType
        cases isNone ▸ isWord.length_eq (WordType.fits_of_ofName? isNamed)
    | string =>
        refine ⟨.inl rfl, ?_⟩
        cases denotes with
        | text s =>
            exact .string s
        | textBytes =>
            exact .stringBytes _
    | bytes =>
        refine ⟨.inr rfl, ?_⟩
        cases denotes with
        | bytes =>
            exact .bytes _
        | bytesHex isHex =>
            exact .bytesText isHex
  · rintro ⟨rfl | rfl, means⟩
    · exact keyBytes_of_hashes hash isType (.string []) means.denotes
    · exact keyBytes_of_hashes hash isType (.bytes []) means.denotes

/-- Keys, each with the name of its type. -/
def withNames (entries : List (Elementary × Value)) : List (String × Value) :=
  entries.map fun entry => (entry.1.name, entry.2)

/-- Whether a key is a value of its type. -/
def IsValue (entry : Elementary × Value) : Prop :=
  ∃ value, entry.1.Means entry.2 value

/-- Whether two keys are the same value, each of its type. -/
def SameValue (first second : Elementary × Value) : Prop :=
  ∃ value, first.1.Means first.2 value ∧ second.1.Means second.2 value

variable {first second : List (Elementary × Value)}

/-- Keys that are the same values are values of their types. -/
theorem areValues_of_sameValues
    (sameValues : List.Forall₂ SameValue first second) :
    (∀ entry ∈ first, IsValue entry) ∧ ∀ entry ∈ second, IsValue entry := by
  induction sameValues with
  | nil =>
      exact ⟨nofun, nofun⟩
  | cons sameValue _ inductionHypothesis =>
      obtain ⟨value, means, otherMeans⟩ := sameValue
      exact ⟨List.forall_mem_cons.mpr ⟨⟨value, means⟩, inductionHypothesis.1⟩,
        List.forall_mem_cons.mpr ⟨⟨value, otherMeans⟩, inductionHypothesis.2⟩⟩

/--
Of keys that are values of one type, those taken for the same value are the
same value.
-/
theorem sameKey_iff
    (isType : type.IsType)
    (isValue : IsValue (type, key))
    (otherIsValue : IsValue (type, other)) :
    SameKey (type.name, key) (type.name, other) ↔
      SameValue (type, key) (type, other) := by
  obtain ⟨value, means⟩ := isValue
  obtain ⟨otherValue, otherMeans⟩ := otherIsValue
  unfold SameKey
  simp only [isType.form_ofName]
  constructor
  · rintro ⟨taken, denotes, otherDenotes⟩
    cases means.eq_of_denotes denotes
    cases otherMeans.eq_of_denotes otherDenotes
    exact ⟨_, means, otherMeans⟩
  · rintro ⟨same, sameMeans, alsoMeans⟩
    exact ⟨same, sameMeans.denotes, alsoMeans.denotes⟩

/-- The same of lists of keys that are values of the same types. -/
theorem sameKeys_iff
    (sameTypes : first.map Prod.fst = second.map Prod.fst)
    (areTypes : ∀ entry ∈ first, entry.1.IsType)
    (areValues : ∀ entry ∈ first, IsValue entry)
    (otherValues : ∀ entry ∈ second, IsValue entry) :
    List.Forall₂ SameKey (withNames first) (withNames second) ↔
      List.Forall₂ SameValue first second := by
  induction first generalizing second with
  | nil =>
      cases List.map_eq_nil_iff.mp sameTypes.symm
      exact iff_of_true .nil .nil
  | cons entry rest inductionHypothesis =>
      obtain ⟨type, key⟩ := entry
      obtain ⟨⟨otherType, other⟩, others, rfl, sameType, sameRest⟩ :=
        List.map_eq_cons_iff.mp sameTypes.symm
      cases sameType
      simp only [List.forall_mem_cons] at areTypes areValues otherValues
      have sameHead := sameKey_iff areTypes.1 areValues.1 otherValues.1
      have sameTail :=
        inductionHypothesis sameRest.symm areTypes.2 areValues.2 otherValues.2
      simp only [withNames, List.map_cons, List.forall₂_cons] at sameTail ⊢
      rw [sameHead, sameTail]

/-- The names of the types of keys. -/
theorem map_fst_withNames
    (entries : List (Elementary × Value)) :
    (withNames entries).map Prod.fst = (entries.map Prod.fst).map name := by
  simp [withNames]

/--
The keys of types that exist are read in one of the ways that there are for
them.
-/
theorem form_withNames
    (areTypes : ∀ entry ∈ first, entry.1.IsType) :
    ∀ entry ∈ withNames first, Form.ofName entry.1 ≠ .other := by
  rw [withNames, List.forall_mem_map]
  rintro ⟨type, key⟩ isIn
  rw [(areTypes _ isIn).form_ofName]
  cases type with
  | word type =>
      cases type <;> nofun
  | string | bytes =>
      nofun

/-- Keys that are values of their types have the sizes of these. -/
theorem hasTypeSize_withNames
    (areTypes : ∀ entry ∈ first, entry.1.IsType)
    (areValues : ∀ entry ∈ first, IsValue entry) :
    ∀ entry ∈ withNames first, HasTypeSize entry.1 entry.2 := by
  rw [withNames, List.forall_mem_map]
  rintro ⟨type, key⟩ isIn
  obtain ⟨value, means⟩ := areValues _ isIn
  exact means.hasTypeSize (areTypes _ isIn)

end Key.Elementary

section Nested

open Key.Elementary

variable {hash : Digest} {messages : Set Bytes}
variable {first second : List (Key.Elementary × Value)}

/--
Nested keys that are values of their types lead to the same slot exactly if
they start at the same one and are the same values, one after the other.

For every key that leads to a slot, this slot is the first one behind an array
or a byte string only if the key is an empty text or byte string of no fixed
size, and then it is the one that belongs to the slot of the last mapping.
-/
theorem nestedSlot_eq_iff
    (injective : Set.InjOn hash messages)
    (sameTypes : first.map Prod.fst = second.map Prod.fst)
    (areTypes : ∀ entry ∈ first, entry.1.IsType)
    {start otherStart found otherFound : Int}
    (firstHashed :
      ∀ message ∈ hashedMessages hash start (withNames first),
        message ∈ messages)
    (secondHashed :
      ∀ message ∈ hashedMessages hash otherStart (withNames second),
        message ∈ messages)
    (isFirst : nestedSlot hash start (withNames first) = .ok found)
    (isSecond :
      nestedSlot hash otherStart (withNames second) = .ok otherFound) :
    ((∀ entry ∈ first, IsValue entry) →
        (∀ entry ∈ second, IsValue entry) →
        (found = otherFound ↔
          start = otherStart ∧ List.Forall₂ SameValue first second)) ∧
      ∀ before type key,
        first = before ++ [(type, key)] →
        ∃ slot,
          nestedSlot hash start (withNames before) = .ok slot ∧
            ∀ owner dataStart,
              dataSlot hash owner = .ok dataStart →
              Word.ofNat owner.toNat ∈ messages →
              (found = dataStart ↔
                (type = .string ∨ type = .bytes) ∧
                  type.Means key (.bytes []) ∧
                  slot = owner) := by
  constructor
  · intro areValues otherValues
    have sameNames :
        (withNames first).map Prod.fst = (withNames second).map Prod.fst := by
      rw [map_fst_withNames, map_fst_withNames, sameTypes]
    have otherTypes : ∀ entry ∈ second, entry.1.IsType := by
      rw [← List.forall_mem_map (f := Prod.fst)] at areTypes ⊢
      rwa [← sameTypes]
    rw [← sameKeys_iff sameTypes areTypes areValues otherValues]
    constructor
    · rintro rfl
      exact sameKeys_of_nestedSlot injective sameNames (form_withNames areTypes)
        (hasTypeSize_withNames areTypes areValues)
        (hasTypeSize_withNames otherTypes otherValues)
        firstHashed secondHashed isFirst isSecond
    · rintro ⟨rfl, sameKeys⟩
      have isSame := nestedSlot_of_sameKeys sameNames sameKeys isFirst
      rw [isSecond] at isSame
      exact (Except.ok.inj isSame).symm
  · rintro before type key rfl
    have isType := areTypes (type, key) (by simp)
    simp only [withNames, List.map_append, List.map_cons, List.map_nil]
      at isFirst firstHashed
    obtain ⟨slot, content, isSlot, inside, isContent, isHash, isHashed⟩ :=
      exists_last_message isFirst
    refine ⟨slot, isSlot, fun owner dataStart isStart ownerHashed => ?_⟩
    have ownerInside : inSlotSpace owner := by
      by_contra outside
      simp [dataSlot, outside] at isStart
    rw [dataSlot_eq ownerInside, Except.ok.injEq] at isStart
    have isOwner : messageOf [] owner = Word.ofNat owner.toNat :=
      List.nil_append _
    rw [← isOwner] at isStart ownerHashed
    rw [← isHash, ← isStart]
    constructor
    · intro sameHash
      have sameMessage :=
        injective (firstHashed _ isHashed) ownerHashed (Int.ofNat.inj sameHash)
      obtain ⟨rfl, sameSlot⟩ :=
        eq_of_messageOf_eq inside ownerInside sameMessage
      obtain ⟨isWhole, means⟩ := (isType.keyBytes_eq_nil_iff hash).mp isContent
      exact ⟨isWhole, means, sameSlot⟩
    · rintro ⟨isWhole, means, rfl⟩
      have isEmpty := (isType.keyBytes_eq_nil_iff hash).mpr ⟨isWhole, means⟩
      rw [isEmpty, Except.ok.injEq] at isContent
      rw [← isContent]

/-- A hash that reads a message as a number, modulo a prime. -/
def remainderHash : Digest :=
  fun message =>
    message.foldl
      (fun total byte => (total * 257 + byte.toNat) % (2 ^ 255 - 19)) 1

/-- The types of keys that are nested in one another. -/
def nestedTypes : List Key.Elementary :=
  [.word (.int 8), .word (.fixedBytes 2), .string]

/-- A number, two bytes and an empty text, as keys of nested mappings. -/
def signedKeys : List (Key.Elementary × Value) :=
  nestedTypes.zip [.int (-1), .bytes [255, 0], .text ""]

/--
The same keys in other spellings: hex digits, and no bytes for the empty text.
-/
def signedSpellings : List (Key.Elementary × Value) :=
  nestedTypes.zip [.text "-0x1", .text "0xFF00", .bytes []]

/-- Another number before the same two bytes and the same text. -/
def unsignedKeys : List (Key.Elementary × Value) :=
  nestedTypes.zip [.int 1, .bytes [255, 0], .text ""]

/-- All that is hashed for these keys from the fifth slot on. -/
def signedMessages : List Bytes :=
  hashedMessages remainderHash 5 (withNames signedKeys) ++
    hashedMessages remainderHash 5 (withNames unsignedKeys)

/-- No two of these messages have the same hash. -/
theorem injOn_signedMessages :
    Set.InjOn remainderHash { message | message ∈ signedMessages } := by
  have distinct : (signedMessages.map remainderHash).Nodup := by
    decide +kernel
  intro message isMessage other otherIsMessage sameHash
  exact List.inj_on_of_nodup_map distinct isMessage otherIsMessage sameHash

/-- An empty text is given for no bytes. -/
theorem means_emptyText :
    Key.Elementary.string.Means (.text "") (.bytes []) := by
  have noBytes : "".toUTF8.toList = [] := by
    decide +kernel
  rw [← noBytes]
  exact .string ""

/-- The keys in both spellings are the same values. -/
theorem sameValues_signedSpellings :
    List.Forall₂ SameValue signedKeys signedSpellings := by
  have isNumeral : Numeral.ofText? "-0x1" = some (-1) := by
    decide +kernel
  have isHex : Bytes.ofHex? "0xFF00" = some [255, 0] := by
    decide +kernel
  refine .cons ⟨.int (-1), ?_, ?_⟩
    (.cons ⟨.bytes [255, 0], ?_, ?_⟩ (.cons ⟨.bytes [], ?_, ?_⟩ .nil))
  · exact .int (.int (-1)) (by decide) (by decide)
  · exact .int (.text isNumeral) (by decide) (by decide)
  · exact .fixedBytes rfl
  · exact .fixedBytesText (by decide) isHex rfl
  · exact means_emptyText
  · exact .stringBytes []

/-- The keys with another number are values of their types. -/
theorem isValue_unsignedKeys :
    ∀ entry ∈ unsignedKeys, IsValue entry := by
  simp only [unsignedKeys, nestedTypes, List.zip_cons_cons, List.zip_nil_left,
    List.forall_mem_cons]
  refine ⟨⟨.int 1, ?_⟩, ⟨.bytes [255, 0], ?_⟩, ⟨.bytes [], ?_⟩, nofun⟩
  · exact .int (.int 1) (by decide) (by decide)
  · exact .fixedBytes rfl
  · exact means_emptyText

/--
A number below zero, two bytes and an empty text lead to one slot in both
spellings, which is the first one behind the slot before the text; the number
above zero leads to another slot.
-/
theorem nestedSlot_of_spellings :
    ∃ owner found other,
      nestedSlot remainderHash 5 (withNames (signedKeys.take 2)) = .ok owner ∧
        nestedSlot remainderHash 5 (withNames signedKeys) = .ok found ∧
        nestedSlot remainderHash 5 (withNames signedSpellings) = .ok found ∧
        dataSlot remainderHash owner = .ok found ∧
        nestedSlot remainderHash 5 (withNames unsignedKeys) = .ok other ∧
        found ≠ other := by
  have exists_slot (keys : List (Key.Elementary × Value))
      (isSlot :
        (nestedSlot remainderHash 5 (withNames keys)).toOption.isSome) :
      ∃ slot, nestedSlot remainderHash 5 (withNames keys) = .ok slot := by
    obtain ⟨slot, isSlot⟩ := Option.isSome_iff_exists.mp isSlot
    exact ⟨slot, Outcome.eq_ok_of_toOption isSlot⟩
  obtain ⟨found, isFound⟩ := exists_slot signedKeys (by decide +kernel)
  obtain ⟨spelled, isSpelled⟩ := exists_slot signedSpellings (by decide +kernel)
  obtain ⟨other, isOther⟩ := exists_slot unsignedKeys (by decide +kernel)
  have areTypes : ∀ entry ∈ signedKeys, entry.1.IsType := by
    simp only [signedKeys, nestedTypes, List.zip_cons_cons, List.zip_nil_left,
      List.forall_mem_cons]
    exact ⟨⟨1, by decide, by decide, rfl⟩, ⟨by decide, by decide⟩,
      trivial, nofun⟩
  obtain ⟨areValues, spelledValues⟩ :=
    areValues_of_sameValues sameValues_signedSpellings
  have spelledHashed :
      ∀ message ∈ hashedMessages remainderHash 5 (withNames signedSpellings),
        message ∈ signedMessages := by
    decide +kernel
  have sameTypes : signedKeys.map Prod.fst = signedSpellings.map Prod.fst :=
    rfl
  have otherTypes : signedKeys.map Prod.fst = unsignedKeys.map Prod.fst :=
    rfl
  obtain ⟨sameSlot, behind⟩ :=
    nestedSlot_eq_iff injOn_signedMessages sameTypes areTypes
      (fun _ isHashed => List.mem_append_left _ isHashed) spelledHashed isFound
      isSpelled
  obtain ⟨otherSlot, -⟩ :=
    nestedSlot_eq_iff injOn_signedMessages otherTypes areTypes
      (fun _ isHashed => List.mem_append_left _ isHashed)
      (fun _ isHashed => List.mem_append_right _ isHashed) isFound isOther
  cases (sameSlot areValues spelledValues).mpr
    ⟨rfl, sameValues_signedSpellings⟩
  obtain ⟨owner, isOwner, isBehind⟩ :=
    behind (signedKeys.take 2) .string (.text "") rfl
  have ownerFacts :
      (nestedSlot remainderHash 5 (withNames (signedKeys.take 2))).toOption.all
        fun slot =>
          inSlotSpace slot &&
            decide (Word.ofNat slot.toNat ∈ signedMessages) := by
    decide +kernel
  simp only [isOwner, Except.toOption, Option.all_some, Bool.and_eq_true,
    decide_eq_true_eq] at ownerFacts
  obtain ⟨ownerInside, ownerHashed⟩ := ownerFacts
  have isStart := @dataSlot_eq remainderHash owner ownerInside
  have isData :=
    (isBehind owner _ isStart ownerHashed).mpr ⟨.inl rfl, means_emptyText, rfl⟩
  refine ⟨owner, found, other, isOwner, isFound,
    isSpelled, by rw [isStart, isData], isOther, ?_⟩
  intro isSame
  obtain ⟨-, otherValues⟩ :=
    (otherSlot areValues isValue_unsignedKeys).mp isSame
  cases otherValues with
  | cons sameNumber _ =>
      obtain ⟨value, means, otherMeans⟩ := sameNumber
      cases means with
      | int reads =>
          cases reads
          cases otherMeans with
          | int otherReads =>
              cases otherReads

/-- Every number but zero leads to the slot of the true value. -/
theorem mappingSlot_of_flagNumber
    {n slot : Int}
    (notZero : n ≠ 0)
    (inside : inSlotSpace slot) :
    mappingSlot hash (.int n) slot "bool" =
      .ok (hash (messageOf (Word.ofNat true.toNat) slot)) := by
  have isTrue : Value.truthy (.int n) = true :=
    bne_iff_ne.mpr notZero
  have denotes := @Key.Denotes.flag (.int n) nofun
  rw [isTrue] at denotes
  have isType : (Key.Elementary.word .bool).IsType :=
    trivial
  have isContent :
      keyBytes hash "bool" (.int n) = .ok (Word.ofNat true.toNat) :=
    keyBytes_of_hashes hash isType (.word (.bool true)) denotes
  exact mappingSlot_eq_ok_iff.mpr ⟨inside, _, isContent, rfl⟩

/-- A number that is a truth value is zero or one. -/
theorem eq_zero_or_eq_one_of_isValue
    {n : Int}
    (isValue : IsValue (.word .bool, .int n)) :
    n = 0 ∨ n = 1 := by
  obtain ⟨value, means⟩ := isValue
  cases means.takes with
  | flagNumber reads isFlag =>
      cases reads
      exact isFlag

/--
Two numbers that are given for truth values and are none lead to one slot.
-/
theorem nestedSlot_of_flagNumbers :
    ∃ found,
      nestedSlot Keccak.digest 0 (withNames [(.word .bool, .int 2)]) =
        .ok found ∧
        nestedSlot Keccak.digest 0 (withNames [(.word .bool, .int 3)]) =
          .ok found ∧
        ¬ List.Forall₂ SameValue [(.word .bool, .int 2)]
          [(.word .bool, .int 3)] := by
  have inside : inSlotSpace 0 := by
    decide
  have leads {n : Int} (notZero : n ≠ 0) :
      nestedSlot Keccak.digest 0 (withNames [(.word .bool, .int n)]) =
        .ok (Keccak.digest (messageOf (Word.ofNat true.toNat) 0)) :=
    Outcome.bind_eq_ok_iff.mpr ⟨_,
      mappingSlot_of_flagNumber notZero inside, rfl⟩
  refine ⟨_, leads (by decide), leads (by decide), fun sameValues => ?_⟩
  have areValues := (areValues_of_sameValues sameValues).1
  have isFlag :=
    eq_zero_or_eq_one_of_isValue (areValues _ (List.mem_singleton_self _))
  omega

end Nested

end EvmStorage
