import EvmStorage.Proofs.Decodable
import EvmStorage.Proofs.Returning
import EvmStorage.Proofs.RoundTrip
import EvmStorage.Proofs.StoredBytes

namespace EvmStorage

/-!
# What can be resolved

In a layout of the shape that compilers give to layouts a cursor that is
reached from a variable can be resolved, whatever the provider answers, except
in three cases: it stands on a mapping, or on an array whose elements lie
elsewhere, or on a byte string whose slot has a length that no byte string
has.  In these cases the fault tells which one it is, and nothing is read that
is not needed to see it.
-/

/--
The cursors that are reached from the variables of a contract, step by step.
-/
inductive Contract.Reaches
    (hash : Digest)
    (contract : Contract) :
    Cursor →
    Prop where
  | root
      {cursor : Cursor}
      (label : Value)
      (onVariable : contract.cursorOn label = .ok cursor) :
      Reaches hash contract cursor
  | step
      {cursor next : Cursor}
      {step : Step}
      (reached : Reaches hash contract cursor)
      (stepped : cursor.step hash contract.layout step = .ok next) :
      Reaches hash contract next
  | atBlock
      {cursor : Cursor}
      (reached : Reaches hash contract cursor)
      (block : Value) :
      Reaches hash contract (cursor.atBlock block)

/--
Why a cursor has no value, and the slots that are asked for until this is seen.

The word is the one in the slot of the cursor; it is even if it announces a
short byte string, and its last byte is twice the length.
-/
inductive Cursor.Unresolvable
    (layout : Layout)
    (cursor : Cursor)
    (word : Bytes) :
    Fault →
    List Int →
    Prop where
  | mapping
      (isMapping : cursor.type.isMapping) :
      Unresolvable layout cursor word
        (.schema (.unselectedMapping cursor.path cursor.type.label)) []
  | elementsElsewhere
      {element : TypeEntry}
      (isArray : cursor.type.isArray)
      (isElement : layout.elementOf cursor.type = .ok element)
      (isElsewhere : Decode.storedElsewhere layout element = .ok true) :
      Unresolvable layout cursor word
        (.unsupported (.elementsElsewhere cursor.type.label element.label)) []
  | shortLengthTooLong
      {front : Bytes}
      {last : UInt8}
      (isBytes : cursor.type.isBytes)
      (isWord : word = front ++ [last])
      (isEven : last.toNat % 2 = 0)
      (tooLong : slotSize ≤ last.toNat / 2) :
      Unresolvable layout cursor word
        (.schema (.shortLengthTooLong (last.toNat / 2) word))
          [cursor.position.slot]

/--
A reached cursor is well placed, and its type is the one that its position
names.
-/
theorem Contract.Reaches.wellPlaced
    {hash : Digest}
    {contract : Contract}
    {cursor : Cursor}
    (reached : contract.Reaches hash cursor)
    (shaped : contract.layout.WellShaped)
    (isWord : ∀ message, hash message < 2 ^ 256) :
    cursor.position.WellPlaced contract.layout contract.address ∧
      contract.layout.lookup cursor.position.type = .ok cursor.type := by
  induction reached with
  | root label onVariable =>
      refine ⟨wellPlaced_of_cursorOn shaped onVariable, ?_⟩
      simp only [cursorOn, Cursor.ofPosition, Outcome.bind_eq_ok_iff,
        Outcome.pure_eq_ok, Except.ok.injEq] at onVariable
      obtain ⟨_, _, type, isType, rfl⟩ := onVariable
      exact isType
  | step _ stepped inductionHypothesis =>
      obtain ⟨_, moved, _, isType⟩ := Cursor.step_eq_ok_iff.mp stepped
      exact ⟨inductionHypothesis.1.step shaped isWord moved, isType⟩
  | atBlock _ block inductionHypothesis =>
      obtain ⟨placed, isType⟩ := inductionHypothesis
      exact ⟨⟨placed.inside, placed.fits, placed.ofContract⟩, isType⟩

namespace Cursor

variable {hash : Digest} {layout : Layout} {cursor : Cursor}
  {element : TypeEntry}

/-- A value that lies in its own slots is read from any words. -/
theorem returns_of_storedElsewhere
    (shaped : layout.Decodable)
    (inTable : cursor.type ∈ layout.types)
    (inside : inSlotSpace cursor.position.slot)
    (fits : cursor.type.FitsAt cursor.position.offset)
    (inPlace : Decode.storedElsewhere layout cursor.type = .ok false) :
    (cursor.resolve hash layout).Returns := by
  have decodes :=
    @Decode.decodes_of_storedElsewhere hash _ _ shaped inTable inPlace
  by_cases isScalar : cursor.type.isScalar
  · have small := ((shaped.sizes cursor.type inTable).scalar isScalar).2
    rw [resolve_of_isScalar isScalar, readScalar, Reading.slot_bind]
    refine .word inside fun word wholeWord => ?_
    obtain ⟨value, isValue⟩ :=
      decodes [word] cursor.position.offset fits (by simpa using wholeWord)
        (by simp only [exactSpan, List.length_singleton]; omega)
    rw [Decode.value_of_isScalar isScalar] at isValue
    rw [isValue]
    exact .done value
  have encoding := Decode.encoding_of_storedElsewhere inPlace
  have hasParts := TypeEntry.isStruct_or_isFixedArray encoding isScalar
  have isSpan : slotSpan cursor.type.size = .ok (exactSpan cursor.type.size) :=
    slotSpan_eq (shaped.size_pos inTable).le
      (shaped.bounded cursor.type inTable)
  rw [resolve_of_isStruct_or_isFixedArray encoding hasParts]
  · unfold readInPlace
    rw [isSpan]
    apply Reading.returns_slots
    intro words isCount wholeWords
    obtain ⟨value, isValue⟩ :=
      decodes words cursor.position.offset fits wholeWords
        (by rw [isCount]; exact Int.self_le_toNat _)
    refine ⟨value, ?_⟩
    by_cases isStruct : cursor.type.isStruct
    · rw [if_pos isStruct, ← isValue,
        Decode.value_of_isStruct shaped.acyclic inTable isStruct]
    · rw [if_neg isStruct, ← isValue,
        Decode.value_of_isFixedArray shaped.acyclic inTable
          (by simpa using isStruct) (hasParts.resolve_left isStruct)]
  · intro isFixedArray
    obtain ⟨element, elementHere, _⟩ :=
      Decode.elementInPlace_of_storedElsewhere shaped.acyclic inTable
        isFixedArray inPlace
    exact ⟨element, elementHere⟩

/-- An array of any length is read from any words, whatever length they tell. -/
theorem returns_of_isDynamicArray
    (shaped : layout.Decodable)
    (inTable : cursor.type ∈ layout.types)
    (inside : inSlotSpace cursor.position.slot)
    (isDynamicArray : cursor.type.isDynamicArray)
    (found : layout.elementOf cursor.type = .ok element)
    (inPlace : Decode.storedElsewhere layout element = .ok false) :
    (cursor.resolve hash layout).Returns := by
  have elementInTable := Layout.mem_types_of_lookup found
  have encoding : cursor.type.encoding = .dynamicArray := by
    simpa [TypeEntry.isDynamicArray] using isDynamicArray
  have notStruct : cursor.type.isStruct = false := by
    simp [TypeEntry.isStruct, shaped.noMembers _ inTable (by simp [encoding])]
  rw [resolve_of_isDynamicArray isDynamicArray notStruct
    (Decode.elementInPlace_eq found inPlace),
    readDynamicArray, Reading.slot_bind]
  refine .word inside fun word wholeWord => ?_
  simp only [found, dataSlot_eq inside, Reading.done_ok_bind,
    arraySpan_eq (fun _ => shaped.size_pos elementInTable)
      (shaped.bounded _ elementInTable)]
  apply Reading.returns_slots
  intro words isCount wholeWords
  obtain ⟨items, areItems⟩ :=
    @Decode.exists_sequence hash _ _ _ words
      (some (Bytes.toNat word : Int)) _ shaped
      (by simp [TypeEntry.isArray, isDynamicArray]) found inPlace
      (Decode.decodes_of_storedElsewhere shaped elementInTable inPlace)
        rfl wholeWords
      (by rw [isCount]; exact Int.self_le_toNat _)
  exact ⟨.list items, by rw [areItems]; rfl⟩

end Cursor

/--
The word of a byte string tells a length, or it is even and tells too much of
one.
-/
theorem Decode.exists_bytesHeader
    {word : Bytes}
    (wholeWord : word.length = slotSize) :
    (∃ header, bytesHeader word = .ok header ∧ header.length < 2 ^ 256) ∨
      ∃ front last,
        word = front ++ [last] ∧ last.toNat % 2 = 0 ∧
          slotSize ≤ last.toNat / 2 := by
  have below : Bytes.toNat word < 2 ^ 256 := by
    have := Bytes.toNat_lt word
    rwa [wholeWord] at this
  by_cases isOdd : Bytes.toNat word % 2 = 1
  · refine .inl ⟨_, bytesHeader_of_odd isOdd, ?_⟩
    simp only
    omega
  · obtain ⟨front, last, rfl⟩ : ∃ front last, word = front ++ [last] := by
      rcases List.eq_nil_or_concat word with rfl | isConcat
      · cases wholeWord
      · simpa using isConcat
    have isEven : last.toNat % 2 = 0 := by
      rw [Bytes.toNat_concat] at isOdd
      omega
    by_cases short : last.toNat / 2 < slotSize
    · refine .inl ⟨_, by rw [bytesHeader_of_even isEven, if_pos short], ?_⟩
      have := last.toNat_lt
      simp only
      omega
    · exact .inr ⟨front, last, rfl, isEven, not_lt.mp short⟩

/-- The request for the slot of a cursor. -/
def Cursor.request (cursor : Cursor) : Request where
  address := cursor.position.address
  slot := cursor.position.slot
  block := cursor.position.block

namespace Contract

variable {hash : Digest} {contract : Contract} {cursor : Cursor}
  {provider : Provider σ} {state : σ} {word : Bytes}

/-- A byte string is read if its word tells a length. -/
theorem exists_read_of_isBytes
    {header : Decode.BytesHeader}
    {label : String}
    (isBytes : cursor.type.isBytes)
    (noMembers : cursor.type.members = none)
    (isLabel : cursor.type.label = .text label)
    (inside : inSlotSpace cursor.position.slot)
    (canShow : cursor.position.block.canShow)
    (answered :
      (provider cursor.request state).1.word cursor.request = .ok word)
    (answersLater :
      provider.Answers cursor.position.address cursor.position.block
        (provider cursor.request state).2)
    (isHeader : Decode.bytesHeader word = .ok header)
    (bounded : header.length < 2 ^ 256) :
    ∃ value, (contract.read hash provider cursor state).1 = .ok value := by
  obtain ⟨span, isSpan⟩ := exists_slotSpan bounded
  have hasText (data : Bytes) :
      ∃ value,
        (Decode.bytesText data cursor.type).map Value.text = .ok value := by
    obtain ⟨shown, isShown, _⟩ := Decode.exists_bytesText isBytes isLabel data
    exact ⟨.text shown, by rw [isShown]; rfl⟩
  simp only [Cursor.request] at answered answersLater
  simp only [read, Cursor.resolve_of_isBytes isBytes noMembers,
    Cursor.readBytes, Reading.slot_bind,
    Provider.run_word_of_ok canShow answered, isHeader, Reading.done_ok_bind,
    dataSlot_eq inside, isSpan]
  split
  · exact answersLater.exists_run canShow
      (Reading.returns_slots _ _ fun _ _ _ => hasText _)
  · exact hasText _

/-- A cursor that has no value is read with the fault that tells why. -/
theorem read_of_unresolvable
    {fault : Fault}
    {slots : List Int}
    (shaped : contract.layout.Decodable)
    (inTable : cursor.type ∈ contract.layout.types)
    (canShow : cursor.position.block.canShow)
    (answered :
      (provider cursor.request state).1.word cursor.request = .ok word)
    (unresolvable : cursor.Unresolvable contract.layout word fault slots) :
    (contract.read hash provider cursor state).1 = .error fault ∧
      (contract.read hash provider.recording cursor (state, [])).2.2 =
        Provider.requestsFor cursor.position.address cursor.position.block
          slots := by
  cases unresolvable with
  | mapping isMapping =>
      simp only [read, Cursor.resolve_of_isMapping isMapping]
      exact ⟨rfl, rfl⟩
  | elementsElsewhere isArray isElement isElsewhere =>
      simp only [read,
        Cursor.resolve_of_elementsElsewhere isArray isElement isElsewhere]
      exact ⟨rfl, rfl⟩
  | @shortLengthTooLong front last isBytes isWord isEven tooLong =>
      have notInPlace : cursor.type.encoding ≠ .inplace := by
        intro isInPlace
        simp [TypeEntry.isBytes, isInPlace] at isBytes
      have noHeader :
          Decode.bytesHeader word =
            .error (.schema (.shortLengthTooLong (last.toNat / 2) word)) := by
        rw [isWord, Decode.bytesHeader_of_even isEven,
          if_neg (not_lt.mpr tooLong)]
      rw [← read_recording []]
      simp only [Cursor.request] at answered
      simp only [read,
        Cursor.resolve_of_isBytes isBytes
          (shaped.noMembers _ inTable notInPlace),
        Cursor.readBytes, Reading.slot_bind,
        Provider.run_recording_word canShow answered, noHeader,
        Reading.done_error_bind]
      exact ⟨rfl, rfl⟩

/-- A cursor that has no reason to have none has a value. -/
theorem exists_read_of_not_unresolvable
    (shaped : contract.layout.Decodable)
    (inTable : cursor.type ∈ contract.layout.types)
    (inside : inSlotSpace cursor.position.slot)
    (fits : cursor.type.FitsAt cursor.position.offset)
    (canShow : cursor.position.block.canShow)
    (answers :
      provider.Answers cursor.position.address cursor.position.block state)
    (answered :
      (provider cursor.request state).1.word cursor.request = .ok word)
    (resolvable :
      ¬ ∃ fault slots, cursor.Unresolvable contract.layout word fault slots) :
    ∃ value, (contract.read hash provider cursor state).1 = .ok value := by
  have elementsHere {element : TypeEntry} (isArray : cursor.type.isArray)
      (found : contract.layout.elementOf cursor.type = .ok element) :
      Decode.storedElsewhere contract.layout element = .ok false := by
    obtain ⟨elsewhere, isElsewhere⟩ :=
      Decode.exists_storedElsewhere shaped.toCompilerShaped
        (Layout.mem_types_of_lookup found)
    cases elsewhere with
    | true =>
        exact absurd
          ⟨_, _, .elementsElsewhere isArray found isElsewhere⟩ resolvable
    | false =>
        exact isElsewhere
  cases encoding : cursor.type.encoding with
  | inplace =>
      apply answers.exists_run canShow
      apply Cursor.returns_of_storedElsewhere shaped inTable inside fits
      cases hasBase : cursor.type.base with
      | none =>
          exact Decode.storedElsewhere_of_base_isNone encoding hasBase
      | some base =>
          have isFixedArray : cursor.type.isFixedArray :=
            TypeEntry.isFixedArray_iff.mpr ⟨encoding, base, hasBase⟩
          obtain ⟨element, _, _, found, _⟩ :=
            shaped.fixedArrays _ inTable isFixedArray
          rw [Decode.storedElsewhere_of_isFixedArray shaped.acyclic inTable
            isFixedArray,
            found]
          exact elementsHere (by simp [TypeEntry.isArray, isFixedArray]) found
  | mapping =>
      exact absurd
        ⟨_, _, .mapping (by simp [TypeEntry.isMapping, encoding])⟩ resolvable
  | dynamicArray =>
      have isDynamicArray : cursor.type.isDynamicArray := by
        simp [TypeEntry.isDynamicArray, encoding]
      obtain ⟨element, found⟩ := shaped.dynamicArrays _ inTable isDynamicArray
      exact answers.exists_run canShow
        (Cursor.returns_of_isDynamicArray shaped inTable inside
          isDynamicArray found
          (elementsHere (by simp [TypeEntry.isArray, isDynamicArray]) found))
  | bytes =>
      have isBytes : cursor.type.isBytes := by
        simp [TypeEntry.isBytes, encoding]
      obtain ⟨label, isLabel⟩ := shaped.bytesLabels _ inTable isBytes
      have noMembers := shaped.noMembers _ inTable (by simp [encoding])
      obtain ⟨other, isOther, wholeWord, answersLater⟩ :=
        answers.exists_word inside
      cases answered.symm.trans isOther
      rcases Decode.exists_bytesHeader wholeWord with
        ⟨header, isHeader, bounded⟩ | ⟨front, last, isWord, isEven, tooLong⟩
      · exact exists_read_of_isBytes isBytes noMembers isLabel inside
          canShow answered answersLater isHeader bounded
      · exact absurd
          ⟨_, _, .shortLengthTooLong isBytes isWord isEven tooLong⟩ resolvable

/--
Every cursor that is reached from a variable has a value at a block that can be
shown, unless it stands on a mapping, on an array whose elements lie elsewhere,
or on a byte string with a length that no byte string has.

Nothing is asked for on a mapping or on such an array, and nothing but the slot
of such a byte string.
-/
theorem read_of_reaches
    (shaped : contract.layout.Decodable)
    (isWord : ∀ message, hash message < 2 ^ 256)
    (reached : contract.Reaches hash cursor)
    (canShow : cursor.position.block.canShow)
    (answers :
      provider.Answers cursor.position.address cursor.position.block state) :
    ∃ word,
      (provider cursor.request state).1.word cursor.request = .ok word ∧
        (∀ fault slots,
          cursor.Unresolvable contract.layout word fault slots →
          (contract.read hash provider cursor state).1 = .error fault ∧
            (contract.read hash provider.recording cursor (state, [])).2.2 =
              Provider.requestsFor cursor.position.address
                cursor.position.block slots) ∧
        ((¬ ∃ fault slots,
          cursor.Unresolvable contract.layout word fault slots) →
          ∃ value,
            (contract.read hash provider cursor state).1 = .ok value) := by
  obtain ⟨placed, onType⟩ := reached.wellPlaced shaped.toWellShaped isWord
  have inTable := Layout.mem_types_of_lookup onType
  obtain ⟨type, isType, fits⟩ := placed.fits
  cases onType.symm.trans isType
  obtain ⟨word, answered, _⟩ := answers.exists_word placed.inside
  refine ⟨word, answered, fun fault slots unresolvable => ?_,
    fun resolvable => ?_⟩
  · exact read_of_unresolvable shaped inTable canShow answered unresolvable
  · exact exists_read_of_not_unresolvable shaped inTable placed.inside fits
      canShow answers answered resolvable

/-- The struct of a flag, an integer, an array and a text in three slots. -/
def parcelType : TypeEntry where
  id := "parcel"
  label := .text "struct Parcel"
  encoding := .inplace
  size := 96
  base := none
  key := none
  value := none
  members := some [
    { label := .text "open", type := .text "open", slot := 0, offset := 0 },
    { label := .text "weight", type := .text "delta", slot := 0, offset := 1 },
    { label := .text "stops", type := .text "deltas", slot := 1, offset := 0 },
    { label := .text "note", type := .text "t_string_storage",
      slot := 2, offset := 0 }
  ]

/-- Structs of any number. -/
def parcelsType : TypeEntry where
  id := "parcels"
  label := .text "struct Parcel[]"
  encoding := .dynamicArray
  size := 32
  base := some (.text "parcel")
  key := none
  value := none
  members := none

/-- Texts of any number, and of any length. -/
def notesType : TypeEntry where
  id := "notes"
  label := .text "string[]"
  encoding := .dynamicArray
  size := 32
  base := some (.text "t_string_storage")
  key := none
  value := none
  members := none

/-- A contract with structs and texts of any number, and with a text. -/
def depot : Contract where
  address := "0x00"
  layout := {
    stateVariables := [
      { label := .text "parcels", type := .text "parcels",
        slot := 0, offset := 0 },
      { label := .text "notes", type := .text "notes", slot := 1, offset := 0 },
      { label := .text "note", type := .text "t_string_storage",
        slot := 2, offset := 0 }
    ]
    types := [openType, deltaType, deltasType, noteType, parcelType,
      parcelsType, notesType]
  }
  defaultBlock := .text "latest"

/-- The values of the layout can be decoded. -/
theorem decodable_depot : depot.layout.Decodable where
  toWellShaped := by decide +kernel
  acyclic := by decide +kernel
  noMembers := by decide +kernel
  bounded := by decide +kernel
  scalars := by
    intro type inTable isScalar
    have isOneOf : type = openType ∨ type = deltaType := by
      revert type
      decide +kernel
    rcases isOneOf with rfl | rfl
    · exact .flag rfl rfl
    · exact .integer false (by decide +kernel)
  inside := by decide +kernel
  fixedArrays := by
    intro type inTable isFixedArray
    have isDeltas : type = deltasType := by
      revert type
      decide +kernel
    subst isDeltas
    exact ⟨deltaType, 3, 1, rfl, ⟨"int16", by decide +kernel⟩,
      Outcome.eq_ok_of_toOption (by decide +kernel), rfl⟩
  dynamicArrays := by decide +kernel
  bytesLabels := by
    intro type inTable isBytes
    have isNote : type = noteType := by
      revert type
      decide +kernel
    exact ⟨"string", by rw [isNote]; rfl⟩
  memberLabels := by decide +kernel

/-- A provider that answers with the number of answers that it has given. -/
def countingProvider : Provider Nat :=
  fun _ count => (.value (.bytes (Word.ofNat count)), count + 1)

/-- The provider that counts always answers. -/
theorem answers_countingProvider (count : Nat) :
    countingProvider.Answers "0x00" (.text "latest") count := by
  refine ⟨fun _ => True, trivial, fun current _ slot _ => ⟨?_, trivial⟩⟩
  exact ⟨.bytes (Word.ofNat current), Word.ofNat current, rfl,
    by simp [Word.ofRaw, Word.ofBytes, Word.ofNat, List.leftpad, slotSize]⟩

/-- The cursor on a variable in a slot, at the latest block. -/
def latestCursor
    (label : String)
    (slot : Int)
    (type : TypeEntry) :
    Cursor where
  position := {
    slot
    offset := 0
    type := .text type.id
    address := "0x00"
    block := .text "latest"
  }
  type
  path := .text label

/--
Structs of any number are read from whatever the provider answers; texts of any
number are not, and neither is a text whose word tells a length of 32 bytes.
-/
theorem read_reached_depot :
    (∃ value,
      (depot.read Keccak.digest countingProvider
        (latestCursor "parcels" 0 parcelsType) 3).1 =
        .ok value) ∧
      ((depot.read Keccak.digest countingProvider
        (latestCursor "notes" 1 notesType) 3).1 =
          .error (.unsupported
            (.elementsElsewhere (.text "string[]") (.text "string"))) ∧
        (depot.read Keccak.digest countingProvider.recording
          (latestCursor "notes" 1 notesType) (3, [])).2.2 = []) ∧
      (depot.read Keccak.digest countingProvider
        (latestCursor "note" 2 noteType) 64).1 =
          .error (.schema (.shortLengthTooLong 32 (Word.ofNat 64))) ∧
        (depot.read Keccak.digest countingProvider.recording
          (latestCursor "note" 2 noteType) (64, [])).2.2 =
          Provider.requestsFor "0x00" (.text "latest") [2] := by
  refine ⟨?_, ?_, ?_⟩
  · obtain ⟨word, _, _, resolved⟩ :=
      @read_of_reaches _ Keccak.digest depot
        (latestCursor "parcels" 0 parcelsType)
        countingProvider 3 decodable_depot Keccak.digest_lt
          (.root (.text "parcels") rfl)
        rfl (answers_countingProvider 3)
    apply resolved
    rintro ⟨fault, slots,
      isMapping | ⟨isArray, isElement, isElsewhere⟩ | ⟨isBytes, _, _, _⟩⟩
    · cases isMapping
    · cases isElement
      cases isElsewhere
    · cases isBytes
  · obtain ⟨word, _, faults, _⟩ :=
      @read_of_reaches _ Keccak.digest depot (latestCursor "notes" 1 notesType)
        countingProvider 3 decodable_depot Keccak.digest_lt
          (.root (.text "notes") rfl)
        rfl (answers_countingProvider 3)
    exact faults _ _
      (@Cursor.Unresolvable.elementsElsewhere _ _ _ noteType rfl rfl rfl)
  · obtain ⟨word, answered, faults, _⟩ :=
      @read_of_reaches _ Keccak.digest depot (latestCursor "note" 2 noteType)
        countingProvider 64 decodable_depot Keccak.digest_lt
          (.root (.text "note") rfl)
        rfl (answers_countingProvider 64)
    cases answered
    exact faults _ _
      (@Cursor.Unresolvable.shortLengthTooLong _ _ _
        (List.replicate 31 0) 64 rfl
        (by decide +kernel) (by decide) (by decide))

/-- Byte strings under a label that is a number. -/
def blobType : TypeEntry where
  id := "blob"
  label := .int 5
  encoding := .bytes
  size := 32
  base := none
  key := none
  value := none
  members := none

/--
A contract with a struct whose only label is a list, and with a byte string.
-/
def mislabelled : Contract where
  address := "0x00"
  layout := {
    stateVariables := [
      { label := .text "box", type := .text "box", slot := 1, offset := 0 },
      { label := .text "blob", type := .text "blob", slot := 2, offset := 0 }
    ]
    types := [openType, boxType, blobType]
  }
  defaultBlock := .text "latest"

/--
Apart from its labels the layout has the shape that compilers give to layouts.
-/
theorem compilerShaped_mislabelled : mislabelled.layout.CompilerShaped where
  toWellShaped := by decide +kernel
  acyclic := by decide +kernel
  noMembers := by decide +kernel
  bounded := by decide +kernel
  scalars := by
    intro type inTable isScalar
    have isOpen : type = openType := by
      revert type
      decide +kernel
    subst isOpen
    exact .flag rfl rfl
  inside := by decide +kernel
  fixedArrays := by
    have noArrays :
        ∀ type ∈ mislabelled.layout.types, type.isFixedArray = false := by
      decide +kernel
    intro type inTable isFixedArray
    rw [noArrays type inTable] at isFixedArray
    cases isFixedArray
  dynamicArrays := by decide +kernel

/--
Structs whose members have a list as their label are not read, and neither are
byte strings whose type has a number as its label.

The shape of the layout is the one that is asked for, the provider answers, and
there is none of the reasons for which a cursor has no value.
-/
theorem read_mislabelled :
    mislabelled.layout.CompilerShaped ∧
      countingProvider.Answers "0x00" (.text "latest") 2 ∧
      (mislabelled.cursorOn (.text "box") = .ok (latestCursor "box" 1 boxType) ∧
        (∀ word fault slots,
          ¬ (latestCursor "box" 1 boxType).Unresolvable mislabelled.layout word
            fault slots) ∧
        (mislabelled.read Keccak.digest countingProvider
          (latestCursor "box" 1 boxType) 2).1.toOption = none) ∧
      mislabelled.cursorOn (.text "blob") =
        .ok (latestCursor "blob" 2 blobType) ∧
        (∀ fault slots,
          ¬ (latestCursor "blob" 2 blobType).Unresolvable mislabelled.layout
            (Word.ofNat 2) fault slots) ∧
        (mislabelled.read Keccak.digest countingProvider
          (latestCursor "blob" 2 blobType) 2).1.toOption = none := by
  refine ⟨compilerShaped_mislabelled, answers_countingProvider 2,
    ⟨rfl, ?_, by decide +kernel⟩,
    rfl, ?_, by decide +kernel⟩
  · rintro word fault slots (isMapping | ⟨isArray, _, _⟩ | ⟨isBytes, _, _, _⟩)
    · cases isMapping
    · cases isArray
    · cases isBytes
  · rintro fault slots
      (isMapping | ⟨isArray, _, _⟩ | @⟨front, last, _, isWord, _, tooLong⟩)
    · cases isMapping
    · cases isArray
    · have isLast := congrArg List.getLast? isWord
      rw [List.getLast?_concat] at isLast
      cases isLast
      revert tooLong
      decide

end Contract

end EvmStorage
