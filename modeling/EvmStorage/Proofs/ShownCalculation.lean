import EvmStorage.Proofs.PrintedElements
import EvmStorage.Proofs.RefusedKeys

namespace EvmStorage

/-!
# Shown calculations

The calculation that is shown for a key is the one by which its slot is found.
The word of the key and the word of the slot are shown in 64 hex digits each,
and what is read back from them one behind the other is hashed to the slot that
is shown.  Where no slot is found nothing is shown, and the error is the same.
-/

/--
Whether a breakdown shows how a slot is found from a word and the slot of the
mapping.
-/
structure Breakdown.Shows
    (hash : Digest)
    (shown : Breakdown)
    (keyWord : Bytes)
    (slot found : Int) :
    Prop where
  keyDigits : shown.keyBytes.toList.length = 64
  keyIsRead : Bytes.ofHexDigits? shown.keyBytes.toList = some keyWord
  slotDigits : shown.slotBytes.toList.length = 64
  slotIsRead :
    ∃ slotWord,
      Bytes.ofHexDigits? shown.slotBytes.toList = some slotWord ∧
        (Bytes.toNat slotWord : Int) = slot
  isJoined : shown.concatenated = shown.keyBytes ++ shown.slotBytes
  isHashed :
    ∃ message,
      Bytes.ofHexDigits? shown.concatenated.toList = some message ∧
        (hash message : Int) = found
  printsFound : Command.WritesHex shown.storageSlot 64 found.toNat

/-- The hex digits of two byte strings stand one behind the other. -/
theorem Bytes.toHex_append (front behind : Bytes) :
    toHex (front ++ behind) = toHex front ++ toHex behind := by
  simp [toHex, hexDigits]

/-- A byte string is read back from its hex digits. -/
theorem Bytes.ofHexDigits?_toHex (content : Bytes) :
    ofHexDigits? (toHex content).toList = some content := by
  rw [toHex, String.toList_ofList, ofHexDigits?_hexDigits]

/-- A word is shown in 64 hex digits. -/
theorem Bytes.length_toHex_of_word
    {word : Bytes}
    (wholeWord : word.length = slotSize) :
    (toHex word).toList.length = 64 := by
  rw [toHex, String.toList_ofList, length_hexDigits, wholeWord]
  rfl

section Slots

variable {hash : Digest} {key : Value} {name : String} {slot : Int}

/--
What is shown of the word of a key and the word of a slot, which are hashed to
what is found.
-/
def Breakdown.ofWords
    (hash : Digest)
    (words : Bytes × Bytes) :
    Breakdown where
  keyBytes := Bytes.toHex words.1
  slotBytes := Bytes.toHex words.2
  concatenated := Bytes.toHex (words.1 ++ words.2)
  storageSlot := paddedHex (hash (words.1 ++ words.2))

/--
The slot under a key that fills a word is the hash of the words, if there are
such.
-/
theorem mappingSlot_eq_map
    (notWhole : isHashedWhole name = false) :
    mappingSlot hash key slot name =
      (keyAndSlotWords hash key slot name).map fun words =>
        (hash (words.1 ++ words.2) : Int) := by
  rw [mappingSlot, if_neg (by simp [notWhole])]
  cases keyAndSlotWords hash key slot name with
  | error fault | ok words =>
      rfl

/-- The words that are hashed are the ones that are shown, if there are such. -/
theorem breakdown_eq_map
    (notWhole : isHashedWhole name = false) :
    breakdown hash key slot name =
      (keyAndSlotWords hash key slot name).map (Breakdown.ofWords hash) := by
  rw [breakdown, if_neg (by simp [notWhole]), mappingSlot_eq_map notWhole]
  cases keyAndSlotWords hash key slot name with
  | error fault | ok words =>
      rfl

/-- A number of 256 bits is shown in 64 hex digits behind a mark. -/
theorem writesHex_paddedHex
    {n : Nat}
    (below : n < 2 ^ 256) :
    Command.WritesHex (paddedHex n) 64 n := by
  have bounded : (n : Int) < slotModulus := by
    rw [slotModulus_eq]
    omega
  exact Command.writesHex_of_lt n.cast_nonneg bounded

/--
What is shown of the word of a key and the word of a slot is read back as these
words.
-/
theorem Breakdown.shows_ofWords
    {keyWord : Bytes}
    (isWord : ∀ message, hash message < 2 ^ 256)
    (inside : inSlotSpace slot)
    (wholeWord : keyWord.length = slotSize) :
    Shows hash (ofWords hash (keyWord, Word.ofNat slot.toNat)) keyWord slot
      (hash (keyWord ++ Word.ofNat slot.toNat)) := by
  have isSlot : (Bytes.toNat (Word.ofNat slot.toNat) : Int) = slot := by
    obtain ⟨nonneg, below⟩ := inSlotSpace_iff.mp inside
    rw [slotModulus_eq] at below
    rw [Word.ofNat, Bytes.toNat_ofNat, Nat.mod_eq_of_lt,
      Int.toNat_of_nonneg nonneg]
    simp only [slotSize]
    omega
  constructor
  case keyDigits =>
    exact Bytes.length_toHex_of_word wholeWord
  case keyIsRead =>
    exact Bytes.ofHexDigits?_toHex keyWord
  case slotDigits =>
    exact Bytes.length_toHex_of_word (Bytes.length_ofNat slotSize slot.toNat)
  case slotIsRead =>
    exact ⟨_, Bytes.ofHexDigits?_toHex _, isSlot⟩
  case isJoined =>
    exact Bytes.toHex_append _ _
  case isHashed =>
    exact ⟨_, Bytes.ofHexDigits?_toHex _, rfl⟩
  case printsFound =>
    exact writesHex_paddedHex (isWord _)

/--
For every key of an elementary type that fills a word, a breakdown fails as the
slot does that it is for, and for a slot that is found it shows the calculation
from the word of the value that the key denotes.
-/
theorem breakdown_shows_calculation
    {type : Key.WordType}
    (isWord : ∀ message, hash message < 2 ^ 256)
    (elementary : type.IsElementary)
    (inside : inSlotSpace slot)
    (key : Value) :
    (∀ fault,
        breakdown hash key slot type.name = .error fault ↔
          mappingSlot hash key slot type.name = .error fault) ∧
      ∀ found,
        mappingSlot hash key slot type.name = .ok found →
        ∃ value keyWord shown,
          Key.Denotes type.form key value ∧
            Key.WordOf type value keyWord ∧
            breakdown hash key slot type.name = .ok shown ∧
            shown.Shows hash keyWord slot found := by
  obtain ⟨isNamed, isForm, notWhole⟩ := elementary.named
  rw [breakdown_eq_map notWhole, mappingSlot_eq_map notWhole]
  cases areWords : keyAndSlotWords hash key slot type.name with
  | error fault =>
      exact ⟨fun other => by simp [Except.map], nofun⟩
  | ok words =>
      refine ⟨fun other => by simp [Except.map], fun found isFound => ?_⟩
      obtain ⟨other, given, keyWord, isOther, isGiven, isKeyWord, -, rfl⟩ :=
        keyAndSlotWords_eq_ok_iff.mp areWords
      cases isFound
      have isContent : keyBytes hash type.name key = .ok keyWord :=
        (keyBytes_eq_ok_iff notWhole).mpr ⟨other, given, isOther,
          isGiven, isKeyWord⟩
      obtain ⟨value, denotes, isValueWord⟩ :=
        elementary.exists_wordOf_of_keyBytes isContent
      exact ⟨value, keyWord, _, denotes, isValueWord, rfl,
        Breakdown.shows_ofWords isWord inside
          (isValueWord.length_eq (Key.WordType.fits_of_ofName? isNamed))⟩

end Slots

/--
A key that writes a negative number in hex digits is shown as its two's
complement.
-/
theorem breakdown_of_negative :
    ∃ shown found,
      breakdown Keccak.digest (.text "-0X00fE") 5 "int16" = .ok shown ∧
        mappingSlot Keccak.digest (.text "-0X00fE") 5 "int16" = .ok found ∧
        shown.Shows Keccak.digest (List.replicate 31 255 ++ [2]) 5 found := by
  have isName : (Key.WordType.int 16).name = "int16" := by
    decide
  have elementary : (Key.WordType.int 16).IsElementary :=
    ⟨2, by decide, by decide, rfl⟩
  have isComplement :
      Word.ofNat (-254 % slotModulus).toNat = List.replicate 31 255 ++ [2] := by
    decide +kernel
  have isWord :
      Key.WordOf (.int 16) (.int (-254))
        (Word.ofNat (-254 % slotModulus).toNat) :=
    .int (by decide) (by decide)
  have isFound :=
    @mappingSlot_of_spells (.word (.int 16)) _ _ _ _ Keccak.digest elementary
      (by decide : inSlotSpace 5) (.word isWord)
        (.int (.text spells_negative.2))
  obtain ⟨-, isShown⟩ :=
    breakdown_shows_calculation Keccak.digest_lt elementary
      (by decide : inSlotSpace 5) (.text "-0X00fE")
  obtain ⟨value, keyWord, shown, denotes, isKeyWord, areShown, shows⟩ :=
    isShown _ isFound
  cases denotes with
  | numeral isNumeral =>
      have isNumber : Numeral.ofText? "-0X00fE" = some (-254) := by
        decide +kernel
      obtain rfl := Option.some.inj (isNumber.symm.trans isNumeral)
      cases isKeyWord
      rw [isComplement] at shows
      rw [isName] at areShown
      exact ⟨shown, _, areShown, isFound, shows⟩

end EvmStorage
