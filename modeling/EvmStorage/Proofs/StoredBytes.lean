import EvmStorage.Proofs.Overwrite
import EvmStorage.Proofs.Requests
import EvmStorage.Proofs.Span

namespace EvmStorage

/-!
# Stored byte strings

A byte string of at most 31 bytes lies in its slot, at the left, with twice its
length in the last byte.  The slot of a longer one holds twice its length plus
one, and its bytes lie 32 to a slot from the hash of the slot on.  What lies
between the bytes and the length, and behind the last byte, is left as it was.
A cursor on a byte string that is stored in this way reads it back, and asks
for the slots that hold it and for no other ones.
-/

/-- The most bytes that lie in the slot of a byte string. -/
def maxShortLength : Nat :=
  31

/-- The number of slots that the bytes of a long byte string take. -/
def chunkCount (data : Bytes) : Nat :=
  (data.length + 31) / 32

/-- The bytes of a byte string that lie in one of its slots. -/
def chunk
    (data : Bytes)
    (index : Nat) :
    Bytes :=
  (data.drop (32 * index)).take 32

/-- The bytes that lie in one slot from its highest byte on. -/
def Leaf.leftAligned
    (index : Nat)
    (content : Bytes) :
    Leaf where
  start := 32 * index + (32 - content.length)
  content := content

/-- The slots that the bytes of a byte string take behind its own slot. -/
def chunkSlots
    (hash : Digest)
    (slot : Int)
    (data : Bytes) :
    List Int :=
  if data.length ≤ maxShortLength then
    []
  else
    Provider.consecutive (hash (Word.ofNat slot.toNat)) (chunkCount data)

namespace Memory

/--
The memory with a short byte string in a slot, and twice its length behind it.
-/
def storeShort
    (memory : Memory)
    (slot : Int)
    (data : Bytes) :
    Memory :=
  memory.writeAll slot [
    .leftAligned 0 data,
    { start := 0, content := [UInt8.ofNat (2 * data.length)] }
  ]

/-- The memory with twice the length of a byte string plus one in a slot. -/
def storeLength
    (memory : Memory)
    (slot : Int)
    (data : Bytes) :
    Memory :=
  memory.write slot { start := 0, content := Word.ofNat (2 * data.length + 1) }

/-- The memory with the bytes of a byte string from a slot on. -/
def storeChunks
    (memory : Memory)
    (start : Int)
    (data : Bytes) :
    Memory :=
  memory.writeAll start
    ((List.range (chunkCount data)).map fun index =>
      .leftAligned index (chunk data index))

/-- The memory in which a byte string is stored at a slot. -/
def storeBytes
    (hash : Digest)
    (memory : Memory)
    (slot : Int)
    (data : Bytes) :
    Memory :=
  if data.length ≤ maxShortLength then
    memory.storeShort slot data
  else
    (memory.storeLength slot data).storeChunks
      (hash (Word.ofNat slot.toNat)) data

variable {memory : Memory} {slot other : Int} {leaf : Leaf} {leaves : List Leaf}

/-- A word none of whose bytes are written stays as it is. -/
theorem word_write_of_not_covers
    (notCovered :
      ∀ place < slotSize,
        ¬ leaf.Covers (32 * ((other - slot) % slotModulus) + (place : Nat))) :
    (memory.write slot leaf).word other = memory.word other := by
  have wholeWord := memory.length_word other
  apply List.ext_getElem
  · rw [(memory.write slot leaf).length_word, wholeWord]
  · intro place inWritten inWord
    have inSlot : slotSize - 1 - place < slotSize := by
      simp only [slotSize]
      omega
    simp only [write, List.getElem_reverse, List.getElem_ofFn, List.length_ofFn,
      if_neg (notCovered _ inSlot)]
    rw [List.getD_eq_getElem _ _ (by simpa [wholeWord] using inSlot),
      List.getElem_reverse]
    congr 1
    simp only [wholeWord, slotSize] at *
    omega

/-- A word none of whose bytes are written by several writes stays as it is. -/
theorem word_writeAll_of_not_covers
    (notCovered :
      ∀ leaf ∈ leaves, ∀ place < slotSize,
        ¬ leaf.Covers (32 * ((other - slot) % slotModulus) + (place : Nat))) :
    (memory.writeAll slot leaves).word other = memory.word other := by
  induction leaves generalizing memory with
  | nil =>
      rfl
  | cons first rest inductionHypothesis =>
      obtain ⟨notFirst, notRest⟩ := List.forall_mem_cons.mp notCovered
      calc
        (memory.writeAll slot (first :: rest)).word other
            = (memory.write slot first).word other :=
          inductionHypothesis notRest
        _ = memory.word other := word_write_of_not_covers notFirst

/-- Bytes that a memory has in one slot are a part of the word of the slot. -/
theorem take_drop_of_holds
    (holds : memory.Holds slot leaf)
    (notEmpty : leaf.content ≠ [])
    (inSlot : leaf.start % 32 + leaf.content.length ≤ 32) :
    ((memory.word ((slot + leaf.start / 32) % slotModulus)).drop
        (slotSize - leaf.start % 32 - leaf.content.length).toNat).take
          leaf.content.length =
      leaf.content := by
  have window := window_of_holds holds notEmpty inSlot
  unfold Word.window at window
  split at window
  · cases window
  · split at window
    · cases window
    · simpa using window

/--
Bytes that lie from the highest byte of a slot on are the first ones of its
word.
-/
theorem take_of_holds_leftAligned
    {index : Nat}
    {content : Bytes}
    (holds : memory.Holds slot (.leftAligned index content))
    (inSlot : content.length ≤ 32) :
    (memory.word ((slot + index) % slotModulus)).take content.length =
      content := by
  rcases List.eq_nil_or_concat content with rfl | notNil
  · simp
  · have notEmpty : content ≠ [] := by
      rintro rfl
      simp at notNil
    have positive : 0 < content.length :=
      List.length_pos_of_ne_nil notEmpty
    have sameSlot :
        (32 * (index : Int) + (32 - content.length)) / 32 = index := by
      omega
    have sameOffset :
        (32 * (index : Int) + (32 - content.length)) % 32 =
          32 - content.length := by
      omega
    have taken :=
      take_drop_of_holds holds notEmpty
        (by simp only [Leaf.leftAligned, sameOffset]; omega)
    simpa [Leaf.leftAligned, sameSlot, sameOffset, slotSize] using taken

end Memory

/-- The bytes of a slot have addresses that belong to the slot. -/
theorem Leaf.slot_of_covers_leftAligned
    {index : Nat}
    {content : Bytes}
    {address : Int}
    (inSlot : content.length ≤ 32)
    (covers : (leftAligned index content).Covers address) :
    address / 32 = index := by
  simp only [Covers, leftAligned] at covers
  omega

theorem length_chunk_le (data : Bytes) (index : Nat) :
    (chunk data index).length ≤ 32 := by
  simp [chunk]

/--
Words that begin with the bytes of the chunks begin with all the bytes
together.
-/
theorem take_flatten_of_chunks
    {words : List Bytes}
    {data : Bytes}
    (wholeWords : ∀ word ∈ words, word.length = 32)
    (enough : data.length ≤ 32 * words.length)
    (chunks :
      ∀ index (inside : index < words.length),
        words[index].take (chunk data index).length = chunk data index) :
    words.flatten.take data.length = data := by
  induction words generalizing data with
  | nil =>
      simpa using enough
  | cons word rest inductionHypothesis =>
      obtain ⟨wholeWord, wholeRest⟩ := List.forall_mem_cons.mp wholeWords
      have first : word.take (data.take 32).length = data.take 32 :=
        chunks 0 (by simp)
      rw [List.flatten_cons]
      by_cases fits : data.length ≤ 32
      · rw [List.take_append_of_le_length (by omega)]
        simpa [List.take_of_length_le fits] using first
      · have isWord : word = data.take 32 := by
          rw [List.length_take_of_le (by omega), ← wholeWord, List.take_length]
            at first
          rwa [wholeWord] at first
        have later :
            rest.flatten.take (data.drop 32).length = data.drop 32 := by
          apply inductionHypothesis wholeRest
          · simp only [List.length_cons, List.length_drop] at enough ⊢
            omega
          · intro index inside
            have isChunk :
                chunk (data.drop 32) index = chunk data (index + 1) := by
              simp only [chunk, List.drop_drop]
              congr 2
              omega
            rw [isChunk]
            exact chunks (index + 1) (by simpa using inside)
        rw [List.take_append, wholeWord, ← List.length_drop, later,
          List.take_of_length_le (by omega), isWord, List.take_append_drop]

namespace Memory

variable {memory : Memory} {hash : Digest} {slot : Int} {data : Bytes}

/-- A short byte string and its length lie apart in one slot. -/
theorem holds_storeShort
    (short : data.length ≤ maxShortLength) :
    (memory.storeShort slot data).Holds slot (.leftAligned 0 data) ∧
      (memory.storeShort slot data).Holds slot
        { start := 0, content := [UInt8.ofNat (2 * data.length)] } := by
  simp only [maxShortLength] at short
  have apart :
      Leaf.Apart (.leftAligned 0 data)
        { start := 0, content := [UInt8.ofNat (2 * data.length)] } := by
    intro address
    simp only [Leaf.Covers, Leaf.leftAligned, List.length_singleton]
    omega
  have holds :=
    @holds_writeAll memory slot
      [.leftAligned 0 data,
        { start := 0, content := [UInt8.ofNat (2 * data.length)] }]
      (by simpa using apart)
      (by
        simp only [List.forall_mem_cons, Leaf.Covers, Leaf.leftAligned, InRange,
          slotModulus_eq, List.length_singleton]
        refine ⟨?_, ?_, by simp⟩ <;> intro address covers <;> omega)
  exact ⟨holds _ (by simp), holds _ (by simp)⟩

/--
The slot of a short byte string begins with its bytes and ends with twice its
length.
-/
theorem word_storeBytes_of_short
    (inside : inSlotSpace slot)
    (short : data.length ≤ maxShortLength) :
    ∃ front,
      (memory.storeBytes hash slot data).word slot =
          front ++ [UInt8.ofNat (2 * data.length)] ∧
        (front ++ [UInt8.ofNat (2 * data.length)]).take data.length = data := by
  have isSlot : slot % slotModulus = slot :=
    emod_slotModulus_of_inSlotSpace inside
  obtain ⟨holdsData, holdsLength⟩ := @holds_storeShort memory slot data short
  have first :=
    take_of_holds_leftAligned holdsData
      (by simp only [maxShortLength] at short; omega)
  have wholeWord : ((memory.storeShort slot data).word slot).length = 32 :=
    length_word _ slot
  have last :
      ((memory.storeShort slot data).word slot).drop 31 =
        [UInt8.ofNat (2 * data.length)] := by
    have taken := take_drop_of_holds holdsLength (by simp) (by simp)
    simp only [Int.zero_ediv, add_zero, isSlot, Int.zero_emod,
      List.length_singleton, slotSize] at taken
    rwa [List.take_of_length_le (by simp [wholeWord])] at taken
  have split :
      (memory.storeShort slot data).word slot =
        ((memory.storeShort slot data).word slot).take 31 ++
          [UInt8.ofNat (2 * data.length)] := by
    rw [← last, List.take_append_drop]
  rw [storeBytes, if_pos short]
  refine ⟨((memory.storeShort slot data).word slot).take 31, split, ?_⟩
  rw [← split]
  simpa [isSlot] using first

/-- The slot of a long byte string holds twice its length plus one. -/
theorem word_storeBytes_of_long
    (inside : inSlotSpace slot)
    (long : ¬ data.length ≤ maxShortLength)
    (apart : slot ∉ chunkSlots hash slot data) :
    (memory.storeBytes hash slot data).word slot =
      Word.ofNat (2 * data.length + 1) := by
  have isSlot : slot % slotModulus = slot :=
    emod_slotModulus_of_inSlotSpace inside
  set start : Int := ((hash (Word.ofNat slot.toNat) : Nat) : Int) with isStart
  have notWritten :
      ∀ leaf ∈ (List.range (chunkCount data)).map fun index =>
          Leaf.leftAligned index (chunk data index),
        ∀ place < slotSize,
          ¬ leaf.Covers
            (32 * ((slot - start) % slotModulus) + (place : Nat)) := by
    intro leaf isLeaf place inSlot covers
    obtain ⟨index, inChunks, rfl⟩ := List.mem_map.mp isLeaf
    have sameSlot :=
      Leaf.slot_of_covers_leftAligned (length_chunk_le data index) covers
    have isIndex : (slot - start) % slotModulus = index := by
      simp only [slotSize] at inSlot
      omega
    apply apart
    rw [chunkSlots, if_neg long]
    refine List.mem_map.mpr ⟨index, inChunks, ?_⟩
    rw [← isIndex, ← isStart, Int.add_emod_emod, add_sub_cancel, isSlot]
  have written :
      (memory.storeLength slot data).Holds slot
        { start := 0, content := Word.ofNat (2 * data.length + 1) } :=
    holds_writeAll (List.pairwise_singleton _ _)
      (by
        simp only [List.forall_mem_singleton, Leaf.Covers, InRange,
          slotModulus_eq, Word.ofNat, Bytes.length_ofNat, slotSize]
        intro address covers
        omega)
      _ (List.mem_singleton_self _)
  have content := take_drop_of_holds written
    (by
      intro isEmpty
      simpa [Word.ofNat, slotSize] using congrArg List.length isEmpty)
    (by simp [Word.ofNat, slotSize])
  have wholeWord := (memory.storeLength slot data).length_word slot
  rw [storeBytes, if_neg long, storeChunks, ← isStart,
    word_writeAll_of_not_covers notWritten]
  simp only [Int.zero_ediv, add_zero, isSlot, Word.ofNat, Bytes.length_ofNat,
    Int.zero_emod, slotSize] at content
  rw [List.take_of_length_le (by simp [wholeWord, slotSize])] at content
  simpa [Word.ofNat, slotSize] using content

/-- The slots behind that of a long byte string begin with its bytes. -/
theorem take_words_storeBytes
    (bounded : data.length ≤ 2 ^ 53)
    (long : ¬ data.length ≤ maxShortLength) :
    ((memory.storeBytes hash slot data).words (hash (Word.ofNat slot.toNat))
        (chunkCount data)).flatten.take data.length =
      data := by
  set start : Int := ((hash (Word.ofNat slot.toNat) : Nat) : Int) with isStart
  have holds :
      ∀ index < chunkCount data,
        (memory.storeBytes hash slot data).Holds start
          (.leftAligned index (chunk data index)) := by
    intro index inChunks
    rw [storeBytes, if_neg long, storeChunks, ← isStart]
    apply holds_writeAll
    · apply List.pairwise_map.mpr
      apply List.pairwise_lt_range.imp
      intro earlier later order address inEarlier inLater
      have isEarlier :=
        Leaf.slot_of_covers_leftAligned (length_chunk_le data earlier) inEarlier
      have isLater :=
        Leaf.slot_of_covers_leftAligned (length_chunk_le data later) inLater
      omega
    · intro leaf isLeaf address covers
      obtain ⟨other, inChunks, rfl⟩ := List.mem_map.mp isLeaf
      have sameSlot :=
        Leaf.slot_of_covers_leftAligned (length_chunk_le data other) covers
      rw [List.mem_range, chunkCount] at inChunks
      simp only [InRange, slotModulus_eq]
      omega
    · exact List.mem_map.mpr ⟨index, List.mem_range.mpr inChunks, rfl⟩
  apply take_flatten_of_chunks
  · intro word isWord
    obtain ⟨index, _, rfl⟩ := List.mem_map.mp isWord
    exact length_word _ _
  · simp only [length_words, chunkCount]
    omega
  · intro index inside
    rw [length_words] at inside
    have begins :=
      take_of_holds_leftAligned (holds index inside)
        (length_chunk_le data index)
    simpa [words] using begins

end Memory

/--
How a byte string is shown, under the label of its type.

Under a label that begins with `string` it is the text that it encodes in
UTF-8, if there is one, and else it is its hex digits.
-/
inductive Bytes.ShownUnder (label : String) (data : Bytes) : String → Prop where
  | text
      (content : String)
      (isString : label.startsWith "string")
      (isEncoding : content.toUTF8.data.toList = data) :
      ShownUnder label data content
  | hex
      (notText :
        ¬ (label.startsWith "string" ∧ ∃ content : String,
          content.toUTF8.data.toList = data)) :
      ShownUnder label data (toMarkedHex data)

namespace Decode

variable {type : TypeEntry} {label : String} {data front : Bytes} {last : UInt8}

/-- An odd word tells the length of a long byte string. -/
theorem bytesHeader_of_odd
    {word : Bytes}
    (isOdd : Bytes.toNat word % 2 = 1) :
    bytesHeader word =
      .ok { length := Bytes.toNat word / 2, isLong := true } := by
  simp only [bytesHeader, isOdd, ↓reduceIte]

/--
The last byte of an even word tells the length of a short byte string, if it is
not too much.
-/
theorem bytesHeader_of_even
    (isEven : last.toNat % 2 = 0) :
    bytesHeader (front ++ [last]) =
      if last.toNat / 2 < slotSize then
        .ok { length := last.toNat / 2, isLong := false }
      else
        .error (.schema
          (.shortLengthTooLong (last.toNat / 2) (front ++ [last]))) := by
  have notOdd : ¬ Bytes.toNat (front ++ [last]) % 2 = 1 := by
    rw [Bytes.toNat_concat]
    omega
  simp only [bytesHeader, if_neg notOdd, List.getLast?_concat]

/--
Twice a length of at most 31 announces a short byte string of this length.
-/
theorem bytesHeader_of_short
    {length : Nat}
    (short : length ≤ maxShortLength) :
    bytesHeader (front ++ [UInt8.ofNat (2 * length)]) =
      .ok { length, isLong := false } := by
  simp only [maxShortLength] at short
  have isByte : (UInt8.ofNat (2 * length)).toNat = 2 * length := by
    rw [UInt8.toNat_ofNat', Nat.mod_eq_of_lt (by omega)]
  have half : 2 * length / 2 = length := by
    omega
  have inSlot : length < slotSize := by
    simp only [slotSize]
    omega
  rw [bytesHeader_of_even (by omega), isByte, half, if_pos inSlot]

/-- Twice a length plus one announces a long byte string of this length. -/
theorem bytesHeader_of_long
    {length : Nat}
    (bounded : length ≤ 2 ^ 53) :
    bytesHeader (Word.ofNat (2 * length + 1)) =
      .ok { length, isLong := true } := by
  have isNumber :
      Bytes.toNat (Word.ofNat (2 * length + 1)) = 2 * length + 1 := by
    rw [Word.ofNat, Bytes.toNat_ofNat, Nat.mod_eq_of_lt]
    norm_num [slotSize]
    omega
  have half : (2 * length + 1) / 2 = length := by
    omega
  rw [bytesHeader_of_odd (by omega), isNumber, half]

/-- A byte string has a text under every label. -/
theorem exists_bytesText
    (isBytes : type.isBytes)
    (isLabel : type.label = .text label)
    (data : Bytes) :
    ∃ shown,
      bytesText data type = .ok shown ∧ Bytes.ShownUnder label data shown := by
  have asText :
      bytesText data type =
        if label.startsWith "string" then
          .ok ((String.fromUTF8? ⟨data.toArray⟩).getD (Bytes.toMarkedHex data))
        else
          .ok (Bytes.toMarkedHex data) := by
    simp only [bytesText, isBytes, TypeEntry.labelText, isLabel,
      Outcome.ok_bind]
    rfl
  rw [asText]
  by_cases isString : label.startsWith "string"
  · by_cases isValid : (ByteArray.mk data.toArray).IsValidUTF8
    · refine ⟨String.fromUTF8 ⟨data.toArray⟩ isValid, ?_, .text _ isString rfl⟩
      simp only [isString, ↓reduceIte, String.fromUTF8?, isValid, ↓reduceDIte,
        Option.getD_some]
    · refine ⟨Bytes.toMarkedHex data, ?_, .hex ?_⟩
      · simp only [isString, ↓reduceIte, String.fromUTF8?, isValid, ↓reduceDIte,
          Option.getD_none]
      · rintro ⟨_, content, rfl⟩
        exact isValid content.isValidUTF8
  · refine ⟨Bytes.toMarkedHex data, ?_, .hex fun isText => isString isText.1⟩
    simp [isString]

end Decode

namespace Cursor

variable {hash : Digest} {layout : Layout} {cursor : Cursor}

/-- A cursor on a byte string reads its length and its bytes. -/
theorem resolve_of_isBytes
    (isBytes : cursor.type.isBytes)
    (noMembers : cursor.type.members = none) :
    cursor.resolve hash layout = cursor.readBytes hash := by
  have encoding : cursor.type.encoding = .bytes := by
    simpa [TypeEntry.isBytes] using isBytes
  simp [resolve, TypeEntry.isMapping, TypeEntry.isScalar, TypeEntry.isArray,
    TypeEntry.isFixedArray, TypeEntry.isDynamicArray, TypeEntry.isStruct,
    encoding, noMembers]

end Cursor

namespace Contract

variable {hash : Digest} {contract : Contract} {cursor : Cursor}
  {provider : Provider σ} {state : σ}

/--
A byte string that was stored is read back, from the slots that hold it.

It is stored at the slot of a cursor, over any memory, and the cursor is read
from a provider that serves the result, at a block that can be shown.  The
requests are one for the slot of the cursor, and one for each of the slots that
the bytes of a long byte string take, in their order.
-/
theorem read_stored_bytes
    {label : String}
    {data : Bytes}
    (isBytes : cursor.type.isBytes)
    (noMembers : cursor.type.members = none)
    (isLabel : cursor.type.label = .text label)
    (inside : inSlotSpace cursor.position.slot)
    (bounded : data.length ≤ 2 ^ 53)
    (apart : cursor.position.slot ∉ chunkSlots hash cursor.position.slot data)
    (background : Memory)
    (canShow : cursor.position.block.canShow)
    (serves :
      provider.Serves cursor.position.address cursor.position.block
        (background.storeBytes hash cursor.position.slot data) state) :
    ∃ shown,
      data.ShownUnder label shown ∧
        (contract.read hash provider cursor state).1 = .ok (.text shown) ∧
        (contract.read hash provider.recording cursor (state, [])).2.2 =
          Provider.requestsFor cursor.position.address cursor.position.block
            (cursor.position.slot ::
              chunkSlots hash cursor.position.slot data) := by
  obtain ⟨shown, isText, isShown⟩ :=
    Decode.exists_bytesText isBytes isLabel data
  suffices readsText :
      ∃ later,
        contract.read hash provider.recording cursor (state, []) =
          (.ok (.text shown), later,
            Provider.requestsFor cursor.position.address cursor.position.block
              (cursor.position.slot ::
                chunkSlots hash cursor.position.slot data)) by
    obtain ⟨later, isRead⟩ := readsText
    exact ⟨shown, isShown, by rw [← read_recording [], isRead], by rw [isRead]⟩
  simp only [read, Cursor.resolve_of_isBytes isBytes noMembers,
    Cursor.readBytes, Reading.slot_bind]
  obtain ⟨between, servesBetween, goesOn⟩ :=
    serves.run_recording_word canShow [] inside _
  rw [goesOn]
  by_cases short : data.length ≤ maxShortLength
  · obtain ⟨front, isWord, isData⟩ :=
      @Memory.word_storeBytes_of_short background hash _ data inside short
    have isHeader := @Decode.bytesHeader_of_short front _ short
    refine ⟨between, ?_⟩
    simp only [isWord, isHeader, Reading.done_ok_bind, Bool.false_eq_true,
      ↓reduceIte, isData, isText, chunkSlots, if_pos short]
    rfl
  · have isWord :=
      @Memory.word_storeBytes_of_long background hash _ data inside short apart
    have isData :=
      @Memory.take_words_storeBytes background hash cursor.position.slot data
        bounded short
    have isHeader := Decode.bytesHeader_of_long bounded
    have isSpan : slotSpan data.length = .ok (chunkCount data : Int) := by
      rw [slotSpan_eq (Int.natCast_nonneg _)
        (by simp only [greatestExactSize]; omega)]
      congr 1
    simp only [isWord, isHeader, Reading.done_ok_bind, ↓reduceIte,
      dataSlot_eq inside, isSpan, Int.toNat_natCast]
    obtain ⟨later, isRead⟩ :=
      servesBetween.run_recording_slots canShow
        (Provider.requestsFor cursor.position.address cursor.position.block
          [cursor.position.slot])
        (hash (Word.ofNat cursor.position.slot.toNat)) (chunkCount data)
        (fun words =>
          (Decode.bytesText (words.flatten.take data.length) cursor.type).map
            Value.text)
    refine ⟨later, ?_⟩
    rw [List.nil_append, isRead, isData, isText, chunkSlots, if_neg short]
    rfl

/-- Texts of any length. -/
def noteType : TypeEntry where
  id := "t_string_storage"
  label := .text "string"
  encoding := .bytes
  size := 32
  base := none
  key := none
  value := none
  members := none

/-- The cursor on a text in slot 5. -/
def noteCursor : Cursor where
  position := {
    slot := 5
    offset := 0
    type := .text "t_string_storage"
    address := "0x00"
    block := .text "latest"
  }
  type := noteType
  path := .text "note"

/-- A contract that stores one text. -/
def notes : Contract where
  address := "0x00"
  layout := {
    stateVariables := [
      { label := .text "note", type := .text "t_string_storage",
        slot := 5, offset := 0 }
    ]
    types := [noteType]
  }
  defaultBlock := .text "latest"

/--
Text of 33 bytes; the two bytes of its last letter lie in different slots.
-/
def note : String :=
  "abcdefghijklmnopqrstuvwxyzabcdeé"

/-- The Keccak hash of the slot of the text. -/
def noteStart : Nat :=
  0x036b6384b5eca791c62761152d0c79bb0604c104a5fb6f4eb0703f3154bb3db0

/-- A digest that agrees with Keccak on the slot of the text. -/
def noteDigest : Digest :=
  fun _ => noteStart

/-- A memory in which the text is stored. -/
def noteMemory : Memory :=
  Memory.slotNumbers.storeBytes noteDigest 5 note.toUTF8.data.toList

/--
A text whose last letter begins in one slot and ends in the next one is read
from both.
-/
theorem read_stored_note :
    (notes.read noteDigest noteMemory.provider noteCursor ()).1 =
      .ok (.text note) ∧
      (notes.read noteDigest noteMemory.provider.recording
        noteCursor ((), [])).2.2 =
        Provider.requestsFor "0x00" (.text "latest") [5, noteStart,
          noteStart + 1] := by
  have serves := Memory.serves_provider noteMemory "0x00" (.text "latest")
  have isSlots :
      chunkSlots noteDigest 5 note.toUTF8.data.toList =
        [(noteStart : Int), noteStart + 1] := by
    decide +kernel
  have apart :
      noteCursor.position.slot ∉ chunkSlots noteDigest 5
        note.toUTF8.data.toList := by
    rw [isSlots]
    decide
  obtain ⟨shown, isShown, isRead, asked⟩ :=
    @read_stored_bytes _ noteDigest notes noteCursor _ () "string"
      note.toUTF8.data.toList
      rfl rfl rfl (by decide)
        (by decide +kernel) apart Memory.slotNumbers rfl serves
  have isNote : shown = note := by
    cases isShown with
    | text content isString isEncoding =>
        exact String.toByteArray_inj.mp
          (ByteArray.ext (Array.toList_inj.mp isEncoding))
    | hex notText =>
        exact absurd ⟨by decide +kernel, note, rfl⟩ notText
  subst isNote
  rw [← isSlots]
  exact ⟨isRead, asked⟩

/-- A block with more digits than can be written. -/
def unwritableBlock : Value :=
  .int (10 ^ 4300)

/--
At a block that cannot be shown the same text is not read, and nothing is asked
for, although the provider serves the memory in which the text is stored.
-/
theorem read_note_at_unwritable_block :
    noteMemory.provider.Serves "0x00" unwritableBlock
        (Memory.slotNumbers.storeBytes noteDigest 5 note.toUTF8.data.toList)
          () ∧
      5 ∉ chunkSlots noteDigest 5 note.toUTF8.data.toList ∧
      (notes.read noteDigest noteMemory.provider
          (noteCursor.atBlock unwritableBlock) ()).1 =
        .error (.misuse .numberTooLong) ∧
      (notes.read noteDigest noteMemory.provider.recording
          (noteCursor.atBlock unwritableBlock) ((), [])).2.2 =
        [] := by
  have hidden :
      (noteCursor.atBlock unwritableBlock).position.block.canShow = false := by
    decide +kernel
  have resolves :
      (noteCursor.atBlock unwritableBlock).resolve noteDigest notes.layout =
        (noteCursor.atBlock unwritableBlock).readBytes noteDigest :=
    Cursor.resolve_of_isBytes rfl rfl
  refine ⟨Memory.serves_provider noteMemory "0x00" unwritableBlock,
    by decide +kernel, ?_, ?_⟩
  · rw [read, resolves, Cursor.readBytes, Reading.slot_bind,
      Provider.run_word_of_hidden hidden]
  · rw [read, resolves, Cursor.readBytes, Reading.slot_bind,
      Provider.run_word_of_hidden hidden]

end Contract

end EvmStorage
