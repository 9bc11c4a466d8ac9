import EvmStorage.Proofs.StoredBytes

namespace EvmStorage

/-!
# Words of lengths

The word of a byte string tells its length and where its bytes lie.  An even
word ends in twice a length of at most 31, and an odd word is twice a greater
length plus one.  No byte string is stored under any other word.  The even ones
of these other words are refused, and nothing is read behind them.  The odd ones
are not: they are taken for the words of byte strings with slots of their own,
although the lengths that they tell are at most 31.
-/

namespace Decode

/-- How a word tells the length of a byte string. -/
inductive BytesHeader.WrittenIn : BytesHeader → Bytes → Prop where
  | short
      {front : Bytes}
      {last : UInt8}
      {length : Nat}
      (isLast : last.toNat = 2 * length)
      (fits : length ≤ maxShortLength) :
      WrittenIn { length, isLong := false } (front ++ [last])
  | long
      {word : Bytes}
      {length : Nat}
      (isNumber : Bytes.toNat word = 2 * length + 1)
      (exceeds : maxShortLength < length) :
      WrittenIn { length, isLong := true } word

/--
Whether an odd word tells a length with which a byte string lies in its own
slot.
-/
def TellsShortAsLong (word : Bytes) : Prop :=
  ∃ length ≤ maxShortLength, Bytes.toNat word = 2 * length + 1

variable {word : Bytes} {header : BytesHeader}

namespace BytesHeader.WrittenIn

/-- A header is read from every word that it is written in. -/
theorem bytesHeader_eq
    (written : header.WrittenIn word) :
    bytesHeader word = .ok header := by
  cases written with
  | @short front last length isLast fits =>
      have half : last.toNat / 2 = length := by
        omega
      have inSlot : length < slotSize :=
        Nat.lt_succ_of_le fits
      rw [bytesHeader_of_even (by omega), half, if_pos inSlot]
  | @long _ length isNumber exceeds =>
      have half : Bytes.toNat word / 2 = length := by
        omega
      rw [bytesHeader_of_odd (by omega), half]

/-- The length that is written in a word tells where the bytes lie. -/
theorem isLong_iff
    (written : header.WrittenIn word) :
    header.isLong ↔ maxShortLength < header.length := by
  cases written with
  | short isLast fits =>
      simpa using fits
  | long isNumber exceeds =>
      simpa using exceeds

end BytesHeader.WrittenIn

namespace TellsShortAsLong

/-- No header is written in an odd word with a length of at most 31. -/
theorem not_writtenIn
    (tells : TellsShortAsLong word) :
    ¬ header.WrittenIn word := by
  obtain ⟨length, atMost, isNumber⟩ := tells
  intro written
  cases written with
  | short isLast fits =>
      rw [Bytes.toNat_concat] at isNumber
      omega
  | long isOther exceeds =>
      omega

/--
An odd word with a length of at most 31 is taken for the word of a long byte
string.
-/
theorem bytesHeader_eq
    (tells : TellsShortAsLong word) :
    bytesHeader word =
      .ok { length := Bytes.toNat word / 2, isLong := true } := by
  obtain ⟨length, -, isNumber⟩ := tells
  exact bytesHeader_of_odd (by omega)

end TellsShortAsLong

/--
A word that no header is written in is refused, unless it tells a short length
as a long one.
-/
theorem exists_refusal_of_word
    (wholeWord : word.length = slotSize)
    (notWritten : ∀ header : BytesHeader, ¬ header.WrittenIn word)
    (notTold : ¬ TellsShortAsLong word) :
    ∃ fault,
      bytesHeader word = .error fault ∧ fault.family? = some "SchemaError" := by
  obtain ⟨front, last, rfl⟩ : ∃ front last, word = front ++ [last] := by
    rcases List.eq_nil_or_concat word with rfl | isConcat
    · cases wholeWord
    · simpa using isConcat
  -- The last byte tells whether the word is even, and alone the length that an
  -- even one ends in.
  have isSum := Bytes.toNat_concat front last
  have isEven : last.toNat % 2 = 0 := by
    by_contra isOdd
    by_cases short : Bytes.toNat (front ++ [last]) / 2 ≤ maxShortLength
    · exact notTold ⟨_, short, by omega⟩
    · exact notWritten _ (.long (by omega) (not_le.mp short))
  have tooLong : ¬ last.toNat / 2 < slotSize := by
    intro inSlot
    exact notWritten _ (.short (by omega) (Nat.le_of_lt_succ inSlot))
  exact ⟨_, by rw [bytesHeader_of_even isEven, if_neg tooLong], rfl⟩

end Decode

/-- The word of a stored byte string has its length written in it. -/
theorem Memory.exists_writtenIn_word_storeBytes
    {hash : Digest}
    {memory : Memory}
    {slot : Int}
    {data : Bytes}
    (inside : inSlotSpace slot)
    (apart : slot ∉ chunkSlots hash slot data)
    (bounded : 2 * data.length + 1 < 2 ^ 256) :
    ∃ header : Decode.BytesHeader,
      header.WrittenIn ((memory.storeBytes hash slot data).word slot) ∧
        header.length = data.length := by
  by_cases short : data.length ≤ maxShortLength
  · obtain ⟨front, isWord, -⟩ :=
      @word_storeBytes_of_short memory hash slot data inside short
    have isByte : (UInt8.ofNat (2 * data.length)).toNat = 2 * data.length := by
      simp only [maxShortLength] at short
      rw [UInt8.toNat_ofNat', Nat.mod_eq_of_lt (by omega)]
    rw [isWord]
    exact ⟨_, .short isByte short, rfl⟩
  · have isNumber :
        Bytes.toNat (Word.ofNat (2 * data.length + 1)) =
          2 * data.length + 1 := by
      rw [Word.ofNat, Bytes.toNat_ofNat]
      exact Nat.mod_eq_of_lt bounded
    rw [word_storeBytes_of_long inside short apart]
    exact ⟨_, .long isNumber (not_le.mp short), rfl⟩

/-- A byte string is refused after its own slot, if its word is refused. -/
theorem Cursor.resolve_of_refused
    {hash : Digest}
    {layout : Layout}
    {cursor : Cursor}
    {word : Bytes}
    {fault : Fault}
    (isBytes : cursor.type.isBytes)
    (noMembers : cursor.type.members = none)
    (refused : Decode.bytesHeader word = .error fault) :
    ∃ next,
      cursor.resolve hash layout = .word cursor.position.slot next ∧
        next word = .done (.error fault) := by
  simp only [resolve_of_isBytes isBytes noMembers, readBytes, Reading.slot_bind]
  exact ⟨_, rfl, by rw [refused]; rfl⟩

namespace Decode

/--
A word that a length is written in is read as this length and no other word of
a byte string there is.

Of the words that are none of a byte string, the ones that tell a short length
as a long one are accepted with it.  All others are refused, and a cursor on
them ends with the slot that it stands on.
-/
theorem bytesHeader_decides_words
    {word : Bytes}
    (wholeWord : word.length = slotSize) :
    (∀ header : BytesHeader, header.WrittenIn word →
        bytesHeader word = .ok header ∧
          (header.isLong ↔ maxShortLength < header.length)) ∧
      (∀ hash memory slot data,
        inSlotSpace slot →
        slot ∉ chunkSlots hash slot data →
        2 * data.length + 1 < 2 ^ 256 →
        (Memory.storeBytes hash memory slot data).word slot = word →
        ∃ header : BytesHeader,
          header.WrittenIn word ∧ header.length = data.length) ∧
      (TellsShortAsLong word →
        (∀ header : BytesHeader, ¬ header.WrittenIn word) ∧
          bytesHeader word =
            .ok { length := Bytes.toNat word / 2, isLong := true }) ∧
      ((∀ header : BytesHeader, ¬ header.WrittenIn word) →
        ¬ TellsShortAsLong word →
        ∃ fault,
          bytesHeader word = .error fault ∧
            fault.family? = some "SchemaError" ∧
            ∀ hash layout (cursor : Cursor),
              cursor.type.isBytes →
              cursor.type.members = none →
              ∃ next,
                cursor.resolve hash layout = .word cursor.position.slot next ∧
                  next word = .done (.error fault)) := by
  refine ⟨fun header written =>
    ⟨written.bytesHeader_eq, written.isLong_iff⟩, ?_,
    fun tells => ⟨fun header => tells.not_writtenIn, tells.bytesHeader_eq⟩, ?_⟩
  · rintro hash memory slot data inside apart bounded rfl
    exact Memory.exists_writtenIn_word_storeBytes inside apart bounded
  · intro notWritten notTold
    obtain ⟨fault, refused, isSchema⟩ :=
      exists_refusal_of_word wholeWord notWritten notTold
    exact ⟨fault, refused, isSchema, fun hash layout cursor isBytes noMembers =>
      Cursor.resolve_of_refused isBytes noMembers refused⟩

/--
No header is written in an even word that ends in twice a length of more than
31.
-/
theorem not_writtenIn_of_tooLong
    {front : Bytes}
    {last : UInt8}
    {header : BytesHeader}
    (isEven : last.toNat % 2 = 0)
    (tooLong : maxShortLength < last.toNat / 2) :
    ¬ header.WrittenIn (front ++ [last]) := by
  generalize isWord : front ++ [last] = word
  intro written
  cases written with
  | @short otherFront otherLast length isLast fits =>
      obtain ⟨-, sameLast⟩ := List.append_inj' isWord rfl
      cases sameLast
      omega
  | long isNumber exceeds =>
      rw [← isWord, Bytes.toNat_concat] at isNumber
      omega

/--
A slot that holds the number 64 is refused, and one that holds 67 has 33 bytes
elsewhere.
-/
theorem bytesHeader_of_64_and_67 :
    bytesHeader (Word.ofNat 67) = .ok { length := 33, isLong := true } ∧
      ∃ fault next,
        fault.family? = some "SchemaError" ∧
          Contract.noteCursor.resolve Keccak.digest Contract.notes.layout =
            .word 5 next ∧
          next (Word.ofNat 64) = .done (.error fault) := by
  have isWord : Word.ofNat 64 = List.replicate 31 0 ++ [64] := by
    decide +kernel
  have wholeWord (n : Nat) : (Word.ofNat n).length = slotSize :=
    Bytes.length_ofNat _ _
  have isNumber (n : Nat) (below : n < 256) :
      Bytes.toNat (Word.ofNat n) = n := by
    rw [Word.ofNat, Bytes.toNat_ofNat]
    exact Nat.mod_eq_of_lt (below.trans (by decide))
  obtain ⟨isRead, -⟩ := bytesHeader_decides_words (wholeWord 67)
  obtain ⟨-, -, -, isRefused⟩ := bytesHeader_decides_words (wholeWord 64)
  have notWritten (header : BytesHeader) :
      ¬ header.WrittenIn (Word.ofNat 64) := by
    rw [isWord]
    exact not_writtenIn_of_tooLong (by decide) (by decide)
  have notTold : ¬ TellsShortAsLong (Word.ofNat 64) := by
    rintro ⟨length, -, isOdd⟩
    rw [isNumber 64 (by decide)] at isOdd
    omega
  obtain ⟨fault, -, isSchema, ends⟩ := isRefused notWritten notTold
  obtain ⟨next, asks, isFault⟩ :=
    ends Keccak.digest Contract.notes.layout Contract.noteCursor rfl rfl
  exact ⟨(isRead _ (.long (isNumber 67 (by decide)) (by decide))).1,
    fault, next, isSchema, asks, isFault⟩

/--
No byte string has the number 63 in its slot, but a length is read from it.
-/
theorem bytesHeader_of_63 :
    (∀ header : BytesHeader, ¬ header.WrittenIn (Word.ofNat 63)) ∧
      bytesHeader (Word.ofNat 63) = .ok { length := 31, isLong := true } := by
  have isNumber : Bytes.toNat (Word.ofNat 63) = 63 := by
    decide +kernel
  have tells : TellsShortAsLong (Word.ofNat 63) :=
    ⟨31, le_rfl, isNumber⟩
  refine ⟨fun header => tells.not_writtenIn, ?_⟩
  rw [tells.bytesHeader_eq, isNumber]

end Decode

end EvmStorage
