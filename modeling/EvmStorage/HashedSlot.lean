import EvmStorage.Key.WordType

namespace EvmStorage

/-!
# Slots found by hashing

The value of a mapping under a key starts at the hash of the key followed by
the slot of the mapping; the elements of an array of any length, and the bytes
of a long byte string, start at the hash of the slot that holds the length.
-/

/--
The slot at which what belongs to a slot, but does not fit into it, starts.
-/
def dataSlot
    (hash : Digest)
    (slot : Int) :
    Except Fault Int :=
  if inSlotSpace slot then
    .ok (hash (Word.ofNat slot.toNat))
  else
    .error (.misuse (.slotOutsideSpace slot))

/-- Whether keys of a type are hashed as they are, and not as one word. -/
def isHashedWhole (typeName : String) : Bool :=
  typeName = "string" || typeName = "bytes"

/-- The word of a key and the word of the slot of its mapping. -/
def keyAndSlotWords
    (hash : Digest)
    (key : Value)
    (slot : Int)
    (typeName : String) :
    Except Fault (Bytes × Bytes) :=
  match Key.WordType.ofName? typeName with
  | none => .error (.unsupported (.keyType typeName))
  | some type => do
      let given ← Key.coerce hash typeName key
      match type.encode? given with
      | some word =>
          if inSlotSpace slot then
            return (word, Word.ofNat slot.toNat)
          else
            .error (.invalidKey (.notEncodable key typeName))
      | none => .error (.invalidKey (.notEncodable key typeName))

/-- The bytes of a key that is hashed as it is. -/
def wholeKey
    (typeName : String)
    (key : Value) :
    Except Fault Bytes :=
  if typeName = "string" then Key.ofText key else Key.ofBytes key

/-- The slot of the value that a mapping has under a key. -/
def mappingSlot
    (hash : Digest)
    (key : Value)
    (slot : Int)
    (typeName : String) :
    Except Fault Int :=
  if isHashedWhole typeName then do
    let content ← wholeKey typeName key
    let word ← Word.ofSlot slot
    return hash (content ++ word)
  else do
    let (keyWord, slotWord) ← keyAndSlotWords hash key slot typeName
    return hash (keyWord ++ slotWord)

/--
A slot number as 64 hex digits behind a mark; more digits if it needs them.
-/
def paddedHex (n : Nat) : String :=
  "0x" ++ String.ofList (Text.hexPadded 64 n)

/-- How the slot of a value of a mapping is found, in hex digits. -/
structure Breakdown where
  keyBytes : String
  slotBytes : String
  concatenated : String
  storageSlot : String
  deriving DecidableEq, Repr

/-- How the slot under a key that fills one word is found. -/
def breakdown
    (hash : Digest)
    (key : Value)
    (slot : Int)
    (typeName : String) :
    Except Fault Breakdown :=
  if isHashedWhole typeName then
    .error (.misuse .breakdownOfHashedKey)
  else do
    let found ← mappingSlot hash key slot typeName
    let (keyWord, slotWord) ← keyAndSlotWords hash key slot typeName
    return {
      keyBytes := Bytes.toHex keyWord
      slotBytes := Bytes.toHex slotWord
      concatenated := Bytes.toHex (keyWord ++ slotWord)
      storageSlot := paddedHex found.toNat
    }

end EvmStorage
