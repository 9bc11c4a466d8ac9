import EvmStorage.Proofs.KeyMeaning
import EvmStorage.Proofs.Memory

namespace EvmStorage

/-!
# Slots of nested mappings

The values of a mapping whose values are mappings again are found by one key
after the other.  Each key is hashed together with the slot found so far.  As
long as no two of the messages that are hashed have the same hash, a slot is
reached from one slot only, and only with keys that are taken for the same
values.  Keys that are no values of their types may be taken for the same value
as others are.
-/

/--
The bytes that are hashed for a key, in front of the word of the slot of its
mapping.
-/
def keyBytes
    (hash : Digest)
    (name : String)
    (key : Value) :
    Except Fault Bytes :=
  if isHashedWhole name then
    wholeKey name key
  else
    match Key.WordType.ofName? name with
    | none => .error (.unsupported (.keyType name))
    | some type => do
        let given ← Key.coerce hash name key
        match type.encode? given with
        | some word => .ok word
        | none => .error (.invalidKey (.notEncodable key name))

/-- What is hashed for a key of a mapping at a slot. -/
def messageOf
    (content : Bytes)
    (slot : Int) :
    Bytes :=
  content ++ Word.ofNat slot.toNat

/-- Whether a key of a type of byte strings of fixed size has this size. -/
def Key.HasTypeSize
    (name : String)
    (key : Value) :
    Prop :=
  ∀ size content,
    Key.WordType.ofName? name = some (.fixedBytes size) →
    Key.Denotes .fixedBytes key (.bytes content) →
    content.length = size

section Step

variable {hash : Digest} {name : String} {key other : Value} {slot found : Int}
  {content : Bytes}

/-- The bytes of a key of a type that fills a word are the word of the key. -/
theorem keyBytes_eq_ok_iff
    (notWhole : isHashedWhole name = false) :
    keyBytes hash name key = .ok content ↔
      ∃ type given,
        Key.WordType.ofName? name = some type ∧
          Key.coerce hash name key = .ok given ∧
          type.encode? given = some content := by
  unfold keyBytes
  rw [if_neg (by simp [notWhole])]
  cases Key.WordType.ofName? name with
  | none =>
      simp
  | some type =>
      cases isGiven : Key.coerce hash name key with
      | error fault =>
          simp
      | ok given =>
          cases isWord : type.encode? given with
          | none =>
              simp [isWord]
          | some word =>
              simp [isWord]

/--
The slot under a key is the hash of the bytes of the key and the word of a slot
that exists.
-/
theorem mappingSlot_eq_ok_iff :
    mappingSlot hash key slot name = .ok found ↔
      inSlotSpace slot ∧
        ∃ content,
          keyBytes hash name key = .ok content ∧
            (hash (messageOf content slot) : Int) = found := by
  unfold mappingSlot
  by_cases isWhole : isHashedWhole name
  · rw [if_pos isWhole, Outcome.bind_eq_ok_iff, keyBytes, if_pos isWhole]
    by_cases inside : inSlotSpace slot
    · simp [Word.ofSlot, inside, messageOf]
    · simp [Word.ofSlot, inside]
  · rw [if_neg isWhole, Outcome.bind_eq_ok_iff]
    simp only [keyAndSlotWords_eq_ok_iff,
      keyBytes_eq_ok_iff (Bool.eq_false_iff.mpr isWhole)]
    constructor
    · rintro ⟨_, ⟨type, given, word, isType, isGiven, isWord,
        inside, rfl⟩, isFound⟩
      exact ⟨inside, word,
        ⟨type, given, isType, isGiven, isWord⟩, by cases isFound; rfl⟩
    · rintro ⟨inside, word, ⟨type, given, isType, isGiven, isWord⟩, rfl⟩
      exact ⟨_, ⟨type, given, word, isType, isGiven, isWord, inside, rfl⟩, rfl⟩

/-- Keys that denote the same value have the same bytes. -/
theorem keyBytes_of_denotes
    {value : Value}
    (denotes : Key.Denotes (Key.Form.ofName name) key value)
    (otherDenotes : Key.Denotes (Key.Form.ofName name) other value)
    (isContent : keyBytes hash name key = .ok content) :
    keyBytes hash name other = .ok content := by
  have sameSpelling : Key.coerce hash name key = Key.coerce hash name other :=
    (Key.coerce_of_denotes denotes).trans
      (Key.coerce_of_denotes otherDenotes).symm
  by_cases isWhole : isHashedWhole name
  · rw [coerce_of_isHashedWhole isWhole, coerce_of_isHashedWhole isWhole]
      at sameSpelling
    rw [keyBytes, if_pos isWhole] at isContent ⊢
    rw [isContent] at sameSpelling
    obtain ⟨otherContent, isOther, sameContent⟩ :=
      Outcome.map_eq_ok_iff.mp sameSpelling.symm
    cases sameContent
    exact isOther
  · rw [keyBytes_eq_ok_iff (Bool.eq_false_iff.mpr isWhole)] at isContent ⊢
    rwa [← sameSpelling]

/--
A key with bytes denotes a value, and if its type fills a word, they are its
word.
-/
theorem exists_denotes_of_keyBytes
    (elementary : Key.Form.ofName name ≠ .other)
    (isContent : keyBytes hash name key = .ok content) :
    (isHashedWhole name ∧
      Key.Denotes (Key.Form.ofName name) key (.bytes content)) ∨
      ∃ type value,
        Key.WordType.ofName? name = some type ∧
          Key.Form.ofName name = type.form ∧
          Key.Denotes type.form key value ∧
          Key.WordOf type value content := by
  by_cases isWhole : isHashedWhole name
  · rw [keyBytes, if_pos isWhole] at isContent
    exact .inl ⟨isWhole, (wholeKey_eq_ok_iff isWhole).mp isContent⟩
  · obtain ⟨type, given, isType, isGiven, isWord⟩ :=
      (keyBytes_eq_ok_iff (Bool.eq_false_iff.mpr isWhole)).mp isContent
    have isForm := Key.WordType.form_of_ofName? isType elementary
    obtain ⟨value, denotes⟩ :=
      Key.exists_denotes_of_encode? isForm isGiven isWord
    have isSpelled :
        Key.coerce hash name key = .ok (Key.spelled hash type.form value) := by
      rw [← isForm] at denotes ⊢
      exact Key.coerce_of_denotes denotes
    rw [isGiven] at isSpelled
    cases isSpelled
    exact .inr ⟨type, value, isType, isForm, denotes, denotes.wordOf isWord⟩

/-- Keys of an elementary type with the same bytes denote the same value. -/
theorem exists_denotes_of_sameBytes
    (elementary : Key.Form.ofName name ≠ .other)
    (hasSize : Key.HasTypeSize name key)
    (otherHasSize : Key.HasTypeSize name other)
    (isContent : keyBytes hash name key = .ok content)
    (otherIsContent : keyBytes hash name other = .ok content) :
    ∃ value,
      Key.Denotes (Key.Form.ofName name) key value ∧
        Key.Denotes (Key.Form.ofName name) other value := by
  have notBoth {type : Key.WordType} (isWhole : isHashedWhole name) :
      Key.WordType.ofName? name ≠ some type := by
    simp only [isHashedWhole, Bool.or_eq_true, decide_eq_true_eq] at isWhole
    rcases isWhole with rfl | rfl
    · exact fun isType => by cases isType
    · exact fun isType => by cases isType
  rcases exists_denotes_of_keyBytes elementary isContent with
    ⟨isWhole, denotes⟩ | ⟨type, value, isType, isForm, denotes, isWord⟩
  · rcases exists_denotes_of_keyBytes elementary otherIsContent with
      ⟨-, otherDenotes⟩ | ⟨type, value, isType, _⟩
    · exact ⟨_, denotes, otherDenotes⟩
    · exact absurd isType (notBoth isWhole)
  · rcases exists_denotes_of_keyBytes elementary otherIsContent with
      ⟨isWhole, -⟩ | ⟨otherType, otherValue, otherIsType, -, otherDenotes,
        otherIsWord⟩
    · exact absurd isType (notBoth isWhole)
    · cases isType.symm.trans otherIsType
      have sameValue : value = otherValue := by
        refine isWord.value_eq otherIsWord rfl
          (Key.WordType.fits_of_ofName? isType) ?_ ?_
        · rintro size bytes rfl rfl
          exact hasSize size bytes isType denotes
        · rintro size bytes rfl rfl
          exact otherHasSize size bytes isType otherDenotes
      subst sameValue
      rw [isForm]
      exact ⟨value, denotes, otherDenotes⟩

end Step

/--
The slot that one key after the other leads to, each with the name of its type.
-/
def nestedSlot (hash : Digest) : Int → List (String × Value) → Except Fault Int
  | slot, [] => .ok slot
  | slot, (name, key) :: rest => do
      let found ← mappingSlot hash key slot name
      nestedSlot hash found rest

/-- What is hashed on the way to the slot of one key after the other. -/
def hashedMessages (hash : Digest) : Int → List (String × Value) → List Bytes
  | _, [] => []
  | slot, (name, key) :: rest =>
      match keyBytes hash name key with
      | .ok content =>
          messageOf content slot ::
            hashedMessages hash (hash (messageOf content slot)) rest
      | .error _ => []

/--
Whether two keys, each with the name of its type, are taken for the same value.
-/
def SameKey (first second : String × Value) : Prop :=
  ∃ value,
    Key.Denotes (Key.Form.ofName first.1) first.2 value ∧
      Key.Denotes (Key.Form.ofName second.1) second.2 value

/-- The messages of keys differ if the slots do, or the bytes of the keys. -/
theorem eq_of_messageOf_eq
    {content other : Bytes}
    {slot otherSlot : Int}
    (inside : inSlotSpace slot)
    (otherInside : inSlotSpace otherSlot)
    (sameMessage : messageOf content slot = messageOf other otherSlot) :
    content = other ∧ slot = otherSlot := by
  simp only [inSlotSpace, Bool.and_eq_true, decide_eq_true_eq]
    at inside otherInside
  rw [slotModulus_eq] at inside otherInside
  have sameLength :
      (Word.ofNat slot.toNat).length = (Word.ofNat otherSlot.toNat).length := by
    rw [Word.ofNat, Word.ofNat, Bytes.length_ofNat, Bytes.length_ofNat]
  obtain ⟨sameContent, sameWord⟩ := List.append_inj' sameMessage sameLength
  have sameNumber := Key.eq_of_word_eq (by omega) (by omega) sameWord
  exact ⟨sameContent, by omega⟩

section Nested

variable {hash : Digest} {messages : Set Bytes}
  {first second : List (String × Value)}

/--
One slot is reached from one slot only, and with keys that are taken for the
same values.
-/
theorem sameKeys_of_nestedSlot
    (injective : Set.InjOn hash messages)
    (sameTypes : first.map Prod.fst = second.map Prod.fst)
    (elementary : ∀ entry ∈ first, Key.Form.ofName entry.1 ≠ .other)
    (firstHasSizes : ∀ entry ∈ first, Key.HasTypeSize entry.1 entry.2)
    (secondHasSizes : ∀ entry ∈ second, Key.HasTypeSize entry.1 entry.2)
    {start otherStart found : Int}
    (firstHashed :
      ∀ message ∈ hashedMessages hash start first, message ∈ messages)
    (secondHashed :
      ∀ message ∈ hashedMessages hash otherStart second, message ∈ messages)
    (isFirst : nestedSlot hash start first = .ok found)
    (isSecond : nestedSlot hash otherStart second = .ok found) :
    start = otherStart ∧ List.Forall₂ SameKey first second := by
  induction first generalizing second start otherStart with
  | nil =>
      cases List.map_eq_nil_iff.mp sameTypes.symm
      cases isFirst
      cases isSecond
      exact ⟨rfl, .nil⟩
  | cons entry rest inductionHypothesis =>
      obtain ⟨name, key⟩ := entry
      obtain ⟨⟨otherName, other⟩, others, rfl, sameName, sameRest⟩ :=
        List.map_eq_cons_iff.mp sameTypes.symm
      cases sameName
      obtain ⟨between, isBetween, goesOn⟩ := Outcome.bind_eq_ok_iff.mp isFirst
      obtain ⟨otherBetween, otherIsBetween, otherGoesOn⟩ :=
        Outcome.bind_eq_ok_iff.mp isSecond
      obtain ⟨inside, content, isContent, rfl⟩ :=
        mappingSlot_eq_ok_iff.mp isBetween
      obtain ⟨otherInside, otherContent, otherIsContent, rfl⟩ :=
        mappingSlot_eq_ok_iff.mp otherIsBetween
      simp only [hashedMessages, isContent, List.forall_mem_cons] at firstHashed
      simp only [hashedMessages, otherIsContent, List.forall_mem_cons]
        at secondHashed
      simp only [List.forall_mem_cons]
        at elementary firstHasSizes secondHasSizes
      obtain ⟨sameHash, sameKeys⟩ :=
        inductionHypothesis sameRest.symm elementary.2 firstHasSizes.2
          secondHasSizes.2 firstHashed.2 secondHashed.2 goesOn otherGoesOn
      have sameMessage :=
        injective firstHashed.1 secondHashed.1 (Int.ofNat.inj sameHash)
      obtain ⟨rfl, rfl⟩ := eq_of_messageOf_eq inside otherInside sameMessage
      have sameKey :=
        exists_denotes_of_sameBytes elementary.1 firstHasSizes.1
          secondHasSizes.1 isContent otherIsContent
      exact ⟨rfl, .cons sameKey sameKeys⟩

/-- Keys that are taken for the same values lead to the same slot. -/
theorem nestedSlot_of_sameKeys
    (sameTypes : first.map Prod.fst = second.map Prod.fst)
    (sameKeys : List.Forall₂ SameKey first second)
    {start found : Int}
    (isFirst : nestedSlot hash start first = .ok found) :
    nestedSlot hash start second = .ok found := by
  induction sameKeys generalizing start with
  | nil =>
      exact isFirst
  | @cons entry other rest others sameKey _ inductionHypothesis =>
      obtain ⟨name, key⟩ := entry
      obtain ⟨otherName, otherKey⟩ := other
      obtain ⟨value, denotes, otherDenotes⟩ := sameKey
      simp only [List.map_cons, List.cons.injEq] at sameTypes
      obtain ⟨rfl, sameRest⟩ := sameTypes
      obtain ⟨between, isBetween, goesOn⟩ := Outcome.bind_eq_ok_iff.mp isFirst
      obtain ⟨inside, content, isContent, isHash⟩ :=
        mappingSlot_eq_ok_iff.mp isBetween
      have otherIsContent := keyBytes_of_denotes denotes otherDenotes isContent
      have otherIsBetween :=
        mappingSlot_eq_ok_iff.mpr ⟨inside, content, otherIsContent, isHash⟩
      exact Outcome.bind_eq_ok_iff.mpr
        ⟨between, otherIsBetween, inductionHypothesis sameRest goesOn⟩

/-- The last key is hashed with the slot that the keys before it lead to. -/
theorem exists_last_message
    {before : List (String × Value)}
    {name : String}
    {key : Value}
    {start found : Int}
    (isFound : nestedSlot hash start (before ++ [(name, key)]) = .ok found) :
    ∃ slot content,
      nestedSlot hash start before = .ok slot ∧
        inSlotSpace slot ∧
        keyBytes hash name key = .ok content ∧
        (hash (messageOf content slot) : Int) = found ∧
        messageOf content slot ∈
          hashedMessages hash start (before ++ [(name, key)]) := by
  induction before generalizing start with
  | nil =>
      obtain ⟨between, isBetween, goesOn⟩ := Outcome.bind_eq_ok_iff.mp isFound
      cases goesOn
      obtain ⟨inside, content, isContent, isHash⟩ :=
        mappingSlot_eq_ok_iff.mp isBetween
      refine ⟨start, content, rfl, inside, isContent, isHash, ?_⟩
      simp [hashedMessages, isContent]
  | cons entry rest inductionHypothesis =>
      obtain ⟨firstName, firstKey⟩ := entry
      obtain ⟨between, isBetween, goesOn⟩ := Outcome.bind_eq_ok_iff.mp isFound
      obtain ⟨-, firstContent, isFirstContent, rfl⟩ :=
        mappingSlot_eq_ok_iff.mp isBetween
      obtain ⟨slot, content, isSlot, inside, isContent, isHash, isHashed⟩ :=
        inductionHypothesis goesOn
      refine ⟨slot, content, ?_, inside, isContent, isHash, ?_⟩
      · rw [nestedSlot, isBetween]
        exact isSlot
      · simp only [List.cons_append, hashedMessages, isFirstContent]
        exact .tail _ isHashed

end Nested

end EvmStorage
