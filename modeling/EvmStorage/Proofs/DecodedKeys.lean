import EvmStorage.Proofs.KeyNames
import EvmStorage.Proofs.Nesting
import EvmStorage.Proofs.ScalarValue
import EvmStorage.Proofs.SignExtension
import EvmStorage.Proofs.StoredBytes

namespace EvmStorage

/-!
# Decoded values as keys

A value that is decoded from stored bytes may be given as the key of a mapping
with keys of its type.  Under this key the slot is the hash of the stored
bytes, extended to a word if the type fills one, followed by the word of the
slot of the mapping.
-/

namespace Bytes

/-- The bytes of an array are listed behind those that were listed before. -/
private theorem listed_behind
    (array : ByteArray)
    (i : Nat)
    (listed : Bytes) :
    ByteArray.toList.loop array i listed =
      listed.reverse ++ array.data.toList.drop i := by
  fun_induction ByteArray.toList.loop array i listed with
  | case1 i listed inside inductionHypothesis =>
      have inList : i < array.data.toList.length := by
        simpa using inside
      have isByte : array.get! i = array.data.toList[i] := by
        rw [Array.getElem_toList]
        exact dif_pos inside
      rw [inductionHypothesis, List.reverse_cons, List.append_assoc,
        List.singleton_append, isByte, List.getElem_cons_drop]
  | case2 i listed outside =>
      have noneLeft : array.data.toList.drop i = [] :=
        List.drop_eq_nil_of_le (by simpa using outside)
      rw [noneLeft, List.append_nil]

/-- The list of the bytes of an array is the list of its items. -/
theorem toList_eq (array : ByteArray) :
    array.toList = array.data.toList := by
  rw [ByteArray.toList, listed_behind, List.reverse_nil, List.nil_append,
    List.drop_zero]

end Bytes

namespace Key

namespace WordType

/-- The number of bytes that the values of a type are stored in. -/
def size : WordType → Nat
  | .address => Address.size
  | .bool => 1
  | .uint bits | .int bits => bits / 8
  | .fixedBytes size => size

@[simp]
theorem size_uint (size : Nat) :
    (uint (8 * size)).size = size :=
  Nat.mul_div_cancel_left size (by decide)

@[simp]
theorem size_int (size : Nat) :
    (int (8 * size)).size = size :=
  Nat.mul_div_cancel_left size (by decide)

/--
The word of the bytes that store a value.

Integers with a sign are extended by it, byte strings of fixed size have zeros
behind, and all other values have zeros in front.
-/
def extend (type : WordType) (data : Bytes) : Bytes :=
  let missing := slotSize - data.length
  match type with
  | .address | .bool | .uint _ => List.replicate missing 0 ++ data
  | .int _ => List.replicate missing
    (if data.isNegative then 255 else 0) ++ data
  | .fixedBytes _ => data ++ List.replicate missing 0

/--
The value that bytes of a type stand for: addresses and byte strings are these
bytes.
-/
def valueOf (type : WordType) (data : Bytes) : Value :=
  match type with
  | .address | .fixedBytes _ => .bytes data
  | .bool => .bool (data.any (· != 0))
  | .uint _ => .int (Bytes.toNat data)
  | .int _ => .int data.toInt

/-- The extended bytes of a value are its word. -/
theorem wordOf_extend
    {type : WordType}
    {data : Bytes}
    (elementary : type.IsElementary)
    (notFlag : type ≠ .bool)
    (wholeValue : data.length = type.size) :
    WordOf type (type.valueOf data) (type.extend data) := by
  cases type with
  | address =>
      rw [extend, wholeValue]
      exact .address wholeValue
  | bool =>
      exact absurd rfl notFlag
  | uint bits =>
      obtain ⟨size, isPositive, fits, rfl⟩ := elementary
      have isLength := wholeValue.trans (size_uint size)
      have below : (Bytes.toNat data : Int) < 2 ^ (8 * size) := by
        rw [pow_mul, ← isLength]
        exact_mod_cast Bytes.toNat_lt data
      have isWord :=
        @WordOf.uint (8 * size) _ (Int.natCast_nonneg (Bytes.toNat data)) below
      rwa [Int.toNat_natCast, Word.ofNat_toNat (isLength.trans_le fits)]
        at isWord
  | int bits =>
      obtain ⟨size, isPositive, fits, rfl⟩ := elementary
      have isLength := wholeValue.trans (size_int size)
      obtain ⟨above, below⟩ :=
        Bytes.toInt_bounds (List.ne_nil_of_length_pos (isLength ▸ isPositive))
      rw [isLength] at above below
      have isWord := @WordOf.int (8 * size) _ above below
      rwa [Word.ofNat_toInt (isLength.trans_le fits)] at isWord
  | fixedBytes size =>
      exact .fixedBytes wholeValue.le

/-- Integers and byte strings of fixed size have a width in their name. -/
theorem name_eq_ofWidth (width : Nat) :
    (uint width).name = Label.ofWidth true .int width ∧
      (int width).name = Label.ofWidth false .int width ∧
      (fixedBytes width).name = Label.ofWidth false .bytes width := by
  have unsigned : "u" ++ "int" = "uint" := by
    decide
  simp [name, Label.ofWidth, Label.DataKind.name, unsigned]

end WordType

namespace Elementary

/-- The value that bytes of a type stand for; texts stand for their encoding. -/
def valueOf : Elementary → Bytes → Value
  | .word type, data => type.valueOf data
  | .string, data | .bytes, data => .bytes data

/-- The bytes that are hashed for a key, from those that store it. -/
def extend : Elementary → Bytes → Bytes
  | .word type, data => type.extend data
  | .string, data | .bytes, data => data

/--
The bytes that store values of a type: truth values are one or zero, and texts
are encoded.
-/
inductive Stores : Elementary → Bytes → Prop where
  | flag
      (isSet : Bool) :
      Stores (.word .bool) [if isSet then 1 else 0]
  | word
      {type : WordType}
      {data : Bytes}
      (notFlag : type ≠ .bool)
      (wholeValue : data.length = type.size) :
      Stores (.word type) data
  | string
      (text : String) :
      Stores .string text.toUTF8.toList
  | bytes
      (data : Bytes) :
      Stores .bytes data

/--
The bytes that are hashed for the value of stored bytes are these, extended.
-/
theorem Stores.hashes
    {type : Elementary}
    {data : Bytes}
    (stores : type.Stores data)
    (isType : type.IsType) :
    type.Hashes (type.valueOf data) (type.extend data) := by
  cases stores with
  | flag isSet =>
      have isWord := WordOf.bool isSet
      cases isSet with
      | false | true =>
          exact .word isWord
  | word notFlag wholeValue =>
      exact .word (WordType.wordOf_extend isType notFlag wholeValue)
  | string text =>
      exact .string _
  | bytes data =>
      exact .bytes data

end Elementary

end Key

/--
Whether the values of a type are those of an elementary one, told by its label.

Accounts are addresses, and the choices of an enum of one byte are numbers.
-/
inductive TypeEntry.Holds (type : TypeEntry) : Key.Elementary → Prop where
  | word
      {held : Key.WordType}
      (isScalar : type.isScalar)
      (isLabel : type.label = .text held.name) :
      type.Holds (.word held)
  | account
      (isScalar : type.isScalar)
      (isLabel : TypeEntry.IsAccount type.label) :
      type.Holds (.word .address)
  | choice
      {name : String}
      (isScalar : type.isScalar)
      (isLabel : type.label = .text ("enum " ++ name)) :
      type.Holds (.word (.uint 8))
  | string
      {label : String}
      (isBytes : type.isBytes)
      (isLabel : type.label = .text label)
      (isString : label.startsWith "string") :
      type.Holds .string
  | bytes
      {label : String}
      (isBytes : type.isBytes)
      (isLabel : type.label = .text label)
      (notString : label.startsWith "string" = false) :
      type.Holds .bytes

/--
The value that bytes of a type are decoded to: a text for byte strings of any
length.
-/
def TypeEntry.decoded
    (hash : Digest)
    (type : TypeEntry)
    (data : Bytes) :
    Except Fault Value :=
  if type.isBytes then
    (Decode.bytesText data type).map .text
  else
    Decode.scalar hash data type

namespace TypeEntry

variable {hash : Digest} {type : TypeEntry} {data : Bytes}

/-- The bytes of a type that fills a part of a word are decoded by its label. -/
theorem decoded_of_isScalar
    (isScalar : type.isScalar) :
    type.decoded hash data = Decode.scalar hash data type := by
  have notBytes : type.isBytes = false := by
    simp [isBytes, (isScalar_iff.mp isScalar).1]
  rw [decoded, notBytes, if_neg Bool.false_ne_true]

/-- The bytes of a byte string of any length are decoded to a text. -/
theorem decoded_of_isBytes
    (isBytes : type.isBytes) :
    type.decoded hash data = (Decode.bytesText data type).map .text :=
  if_pos isBytes

/-- The bytes of an account are decoded to a text that writes its address. -/
theorem exists_decoded_of_isAccount
    (isScalar : type.isScalar)
    (isLabel : TypeEntry.IsAccount type.label)
    (stores : (Key.Elementary.word .address).Stores data) :
    ∃ value,
      type.decoded hash data = .ok value ∧
        (Key.Elementary.word .address).Spells (.bytes data) value := by
  cases stores with
  | word notFlag wholeValue =>
      rw [decoded_of_isScalar isScalar]
      exact ⟨_, Decode.scalar_of_isAccount isScalar isLabel wholeValue,
        .address wholeValue (.text (Address.spells_checksum hash data))⟩

/--
The bytes of a type with the name of an elementary one are decoded to a key for
its value.
-/
theorem exists_decoded_of_name
    {held : Key.WordType}
    (isScalar : type.isScalar)
    (isLabel : type.label = .text held.name)
    (elementary : held.IsElementary)
    (stores : (Key.Elementary.word held).Stores data) :
    ∃ value,
      type.decoded hash data = .ok value ∧
        (Key.Elementary.word held).Spells (held.valueOf data) value := by
  cases held with
  | address =>
      exact exists_decoded_of_isAccount isScalar (.inl isLabel) stores
  | bool =>
      have isFlag :
          type.decoded hash data = .ok (.bool (data.any (· != 0))) := by
        rw [decoded_of_isScalar isScalar]
        simp [Decode.scalar, isScalar, labelText, isLabel, Key.WordType.name]
      exact ⟨_, isFlag, .flag _⟩
  | uint bits =>
      obtain ⟨size, isPositive, fits, rfl⟩ := elementary
      rw [(Key.WordType.name_eq_ofWidth _).1] at isLabel
      rw [decoded_of_isScalar isScalar,
        Decode.scalar_ofWidth isScalar isLabel
          (Label.width_lt (Nat.mul_le_mul_left 8 fits))]
      exact ⟨_, rfl, .uint (.int _)⟩
  | int bits =>
      obtain ⟨size, isPositive, fits, rfl⟩ := elementary
      rw [(Key.WordType.name_eq_ofWidth _).2.1] at isLabel
      have isLength : data.length = size := by
        cases stores with
        | word notFlag wholeValue =>
            exact wholeValue.trans (Key.WordType.size_int size)
      have isInteger :
          TwosComplement.decode (Bytes.toNat data) ((8 * size : Nat) : Int) =
            .ok data.toInt := by
        obtain ⟨above, below⟩ :=
          Bytes.toInt_bounds (List.ne_nil_of_length_pos (isLength ▸ isPositive))
        have isStored := Bytes.toInt_emod data
        rw [isLength] at above below isStored
        have isRead :=
          TwosComplement.decode_emod
            (Nat.mul_pos (by decide) isPositive) above below
        rw [pow_mul] at isRead
        rwa [← isStored]
      rw [decoded_of_isScalar isScalar,
        Decode.scalar_ofWidth isScalar isLabel
          (Label.width_lt (Nat.mul_le_mul_left 8 fits))]
      simp only [Label.DataKind.bits, isInteger]
      exact ⟨_, rfl, .int (.int _)⟩
  | fixedBytes size =>
      obtain ⟨isPositive, fits⟩ := elementary
      rw [(Key.WordType.name_eq_ofWidth _).2.2] at isLabel
      have atMost : size ≤ 256 :=
        fits.trans (by decide)
      rw [decoded_of_isScalar isScalar,
        Decode.scalar_ofWidth isScalar isLabel (Label.width_lt atMost)]
      exact ⟨_, rfl, .fixedBytes (.text (Bytes.spells_toMarkedHex data))⟩

/-- The bytes of a type are decoded to a key that spells their value. -/
theorem Holds.exists_decoded
    {held : Key.Elementary}
    (holds : type.Holds held)
    (isType : held.IsType)
    (stores : held.Stores data) :
    ∃ value,
      type.decoded hash data = .ok value ∧
        held.Spells (held.valueOf data) value := by
  cases holds with
  | word isScalar isLabel =>
      exact exists_decoded_of_name isScalar isLabel isType stores
  | account isScalar isLabel =>
      exact exists_decoded_of_isAccount isScalar isLabel stores
  | choice isScalar isLabel =>
      rw [decoded_of_isScalar isScalar, Decode.scalar_of_enum isScalar isLabel]
      exact ⟨_, rfl, .uint (.int _)⟩
  | string isBytes isLabel isString =>
      obtain ⟨shown, isDecoded, isShown⟩ :=
        Decode.exists_bytesText isBytes isLabel data
      cases stores with
      | string text =>
          rw [decoded_of_isBytes isBytes, isDecoded]
          cases isShown with
          | text _ isString isEncoding =>
              refine ⟨_, rfl, ?_⟩
              rw [← isEncoding, ← Bytes.toList_eq]
              exact .string _
          | hex notText =>
              exact absurd ⟨isString, text, (Bytes.toList_eq _).symm⟩ notText
  | bytes isBytes isLabel notString =>
      obtain ⟨shown, isDecoded, isShown⟩ :=
        Decode.exists_bytesText isBytes isLabel data
      rw [decoded_of_isBytes isBytes, isDecoded]
      cases isShown with
      | text _ isString =>
          rw [notString] at isString
          cases isString
      | hex =>
          exact ⟨_, rfl, .bytes (.text (Bytes.spells_toMarkedHex data))⟩

end TypeEntry

section Slots

variable {type : TypeEntry} {held : Key.Elementary} {id : String} {data : Bytes}
  {slot : Int}

/--
The value that stored bytes are decoded to is a key for them.  Under it the
slot is the hash of the bytes, extended to a word if their type fills one, and
the word of the mapping's slot.

The type of the keys is the one that an identifier of the elementary type of
the stored values leads to.
-/
theorem mappingSlot_of_decoded
    (hash : Digest)
    (holds : type.Holds held)
    (identifies : Key.Identifies id held)
    (isType : held.IsType)
    (stores : held.Stores data)
    (inside : inSlotSpace slot) :
    ∃ value,
      type.decoded hash data = .ok value ∧
        mappingSlot hash value slot (Key.typeName id) =
          .ok (hash (held.extend data ++ Word.ofNat slot.toNat)) := by
  obtain ⟨value, isDecoded, spells⟩ :=
    @TypeEntry.Holds.exists_decoded hash type data held holds isType stores
  refine ⟨value, isDecoded, ?_⟩
  rw [identifies.typeName_eq isType]
  exact mappingSlot_of_spells hash isType inside (stores.hashes isType) spells

end Slots

/-- A type with a label that lies in a part of a word. -/
def labelledScalar (id label : String) (size : Int) : TypeEntry :=
  { id
    label := .text label
    encoding := .inplace
    size
    base := none
    key := none
    value := none
    members := none }

/-- The type of integers of two bytes with a sign. -/
def int16Type : TypeEntry :=
  labelledScalar "t_int16" "int16" 2

/-- The type of an enum that is declared in a contract. -/
def statusType : TypeEntry :=
  labelledScalar "t_enum(Status)12" "enum Vault.Status" 1

/-- The types hold elementary ones, which their identifiers lead to. -/
theorem holds_int16_and_status :
    (int16Type.Holds (.word (.int 16)) ∧
      Key.Identifies int16Type.id (.word (.int 16))) ∧
      statusType.Holds (.word (.uint 8)) ∧
        Key.Identifies statusType.id (.word (.uint 8)) := by
  have isIntegerId : "t_" ++ (Key.WordType.int 16).name = int16Type.id := by
    decide
  have isLabel : statusType.label = .text ("enum " ++ "Vault.Status") := by
    decide
  have isStatusId :
      "t_enum(" ++ "Status" ++ ")" ++ toString 12 = statusType.id := by
    decide
  refine ⟨⟨.word rfl rfl, ?_⟩, .choice rfl isLabel, ?_⟩
  · rw [← isIntegerId]
    exact .word (.int 16)
  · rw [← isStatusId]
    exact .choice (by decide) 12

/--
The bytes of a number below zero and those of an enum are decoded to keys for
them: the one is extended by its sign, and the other by zeros.
-/
theorem mappingSlot_of_decoded_int16_and_status :
    (∃ value,
        int16Type.decoded Keccak.digest [255, 2] = .ok value ∧
          mappingSlot Keccak.digest value 5 (Key.typeName int16Type.id) =
            .ok (Keccak.digest
              ((List.replicate 30 255 ++ [255, 2]) ++ Word.ofNat 5))) ∧
      ∃ value,
        statusType.decoded Keccak.digest [3] = .ok value ∧
          mappingSlot Keccak.digest value 5 (Key.typeName statusType.id) =
            .ok (Keccak.digest
              ((List.replicate 31 0 ++ [3]) ++ Word.ofNat 5)) := by
  obtain ⟨⟨integerHolds, integerId⟩, statusHolds, statusId⟩ :=
    holds_int16_and_status
  have inside : inSlotSpace 5 := by
    decide
  have integerWord :
      (Key.Elementary.word (.int 16)).extend [255, 2] =
        List.replicate 30 255 ++ [255, 2] := by
    decide
  have statusWord :
      (Key.Elementary.word (.uint 8)).extend [3] =
        List.replicate 31 0 ++ [3] := by
    decide
  constructor
  · rw [← integerWord]
    exact mappingSlot_of_decoded Keccak.digest integerHolds integerId
      ⟨2, by decide, by decide, rfl⟩ (.word (by decide) (by decide)) inside
  · rw [← statusWord]
    exact mappingSlot_of_decoded Keccak.digest statusHolds statusId
      ⟨1, by decide, by decide, rfl⟩ (.word (by decide) (by decide)) inside

end EvmStorage
