import EvmStorage.Proofs.NestedSlots

namespace EvmStorage

/-!
# Spellings of keys

A key of an elementary type may be given as a value of its own or as a text,
and there are many such texts for one value.  The slot of the mapping's value
is the hash of the word or the bytes of the value followed by the word of the
slot of the mapping, whichever spelling was chosen.
-/

namespace Key

/-- Whether a key is given as a number, as it is or as a text that writes it. -/
inductive GivesNumber : Value → Int → Prop where
  | int
      (n : Int) :
      GivesNumber (.int n) n
  | text
      {text : String}
      {n : Int}
      (spells : Numeral.Spells text n) :
      GivesNumber (.text text) n

/--
Whether a key is given as bytes, as they are or as a text that writes them.
-/
inductive GivesBytes : Value → Bytes → Prop where
  | bytes
      (content : Bytes) :
      GivesBytes (.bytes content) content
  | text
      {text : String}
      {content : Bytes}
      (spells : Bytes.Spells text content) :
      GivesBytes (.text text) content

namespace WordType

/-- The name of a type. -/
def name : WordType → String
  | .address => "address"
  | .bool => "bool"
  | .uint bits => "uint" ++ toString bits
  | .int bits => "int" ++ toString bits
  | .fixedBytes size => "bytes" ++ toString size

/--
Whether the values of a type have at least one byte and at most a word of them.
-/
def IsElementary : WordType → Prop
  | .uint bits
  | .int bits => ∃ size, 0 < size ∧ size ≤ slotSize ∧ bits = 8 * size
  | .fixedBytes size => 0 < size ∧ size ≤ slotSize
  | .address | .bool => True

/--
What holds of the types of every number of bytes holds of all elementary types.
-/
@[elab_as_elim]
theorem IsElementary.of_widths
    {motive : WordType → Prop}
    (widths :
      ∀ size < slotSize + 1, 0 < size →
        ∀ type ∈ [uint (8 * size), int (8 * size), fixedBytes size],
          motive type)
    (others : motive address ∧ motive bool)
    {type : WordType}
    (elementary : type.IsElementary) :
    motive type := by
  cases type with
  | address =>
      exact others.1
  | bool =>
      exact others.2
  | uint bits | int bits =>
      obtain ⟨size, isPositive, fits, rfl⟩ := elementary
      exact widths size (Nat.lt_succ_of_le fits) isPositive _ (by simp)
  | fixedBytes size =>
      obtain ⟨isPositive, fits⟩ := elementary
      exact widths size (Nat.lt_succ_of_le fits) isPositive _ (by simp)

/--
The name of an elementary type is the one under which its keys are encoded.
-/
theorem IsElementary.named
    {type : WordType}
    (elementary : type.IsElementary) :
    ofName? type.name = some type ∧
      Form.ofName type.name = type.form ∧
      isHashedWhole type.name = false := by
  have facts :
      ofName? type.name = some type ∧
        Form.ofName type.name ≠ .other ∧
        isHashedWhole type.name = false := by
    refine IsElementary.of_widths ?_ ?_ elementary
    · decide +kernel
    · decide +kernel
  exact ⟨facts.1, form_of_ofName? facts.1 facts.2.1, facts.2.2⟩

end WordType

/--
The elementary types of keys: those that fill a word, and texts and byte
strings.
-/
inductive Elementary where
  | word (type : WordType)
  | string
  | bytes
  deriving DecidableEq, Repr

namespace Elementary

/-- The name of a type. -/
def name : Elementary → String
  | .word type => type.name
  | .string => "string"
  | .bytes => "bytes"

/-- How the keys of a type are read. -/
def form : Elementary → Form
  | .word type => type.form
  | .string => .string
  | .bytes => .bytes

/-- Whether a type is one that there is. -/
def IsType : Elementary → Prop
  | .word type => type.IsElementary
  | .string | .bytes => True

/--
The values of a type, each with the bytes that are hashed for it.

Texts stand for their encoding.
-/
inductive Hashes : Elementary → Value → Bytes → Prop where
  | word
      {type : WordType}
      {value : Value}
      {content : Bytes}
      (isWord : WordOf type value content) :
      Hashes (.word type) value content
  | string
      (content : Bytes) :
      Hashes .string (.bytes content) content
  | bytes
      (content : Bytes) :
      Hashes .bytes (.bytes content) content

/--
The spellings of the values of a type, as the keys that may be given for them.
-/
inductive Spells : Elementary → Value → Value → Prop where
  | uint
      {bits : Nat}
      {n : Int}
      {key : Value}
      (gives : GivesNumber key n) :
      Spells (.word (.uint bits)) (.int n) key
  | int
      {bits : Nat}
      {n : Int}
      {key : Value}
      (gives : GivesNumber key n) :
      Spells (.word (.int bits)) (.int n) key
  | flag
      (flag : Bool) :
      Spells (.word .bool) (.bool flag) (.bool flag)
  | flagNumber
      {flag : Bool}
      {key : Value}
      (gives : GivesNumber key flag.toNat) :
      Spells (.word .bool) (.bool flag) key
  | address
      {content : Bytes}
      {key : Value}
      (isAddress : content.length = Address.size)
      (gives : GivesBytes key content) :
      Spells (.word .address) (.bytes content) key
  | fixedBytes
      {size : Nat}
      {content : Bytes}
      {key : Value}
      (gives : GivesBytes key content) :
      Spells (.word (.fixedBytes size)) (.bytes content) key
  | string
      (text : String) :
      Spells .string (.bytes text.toUTF8.toList) (.text text)
  | stringBytes
      (content : Bytes) :
      Spells .string (.bytes content) (.bytes content)
  | bytes
      {content : Bytes}
      {key : Value}
      (gives : GivesBytes key content) :
      Spells .bytes (.bytes content) key

/-- The names of types that exist tell how their keys are read. -/
theorem IsType.form_ofName
    {type : Elementary}
    (isType : type.IsType) :
    Form.ofName type.name = type.form := by
  cases type with
  | word type =>
      exact isType.named.2.1
  | string | bytes =>
      decide

/-- A key denotes every value that it spells. -/
theorem Spells.denotes
    {type : Elementary}
    {value key : Value}
    (spells : type.Spells value key) :
    Denotes type.form key value := by
  cases spells with
  | uint gives | int gives =>
      cases gives with
      | int =>
          exact .integer _
      | text spells =>
          exact .numeral (Numeral.ofText?_of_spells spells)
  | flag flag =>
      exact .flag nofun
  | @flagNumber flag key gives =>
      cases gives with
      | int =>
          have isFlag : Value.truthy (.int flag.toNat) = flag := by
            cases flag <;> rfl
          have denotes := @Denotes.flag (.int flag.toNat) nofun
          rwa [isFlag] at denotes
      | text spells =>
          have isFlag : ((flag.toNat : Int) != 0) = flag := by
            cases flag <;> rfl
          have denotes := Denotes.flagNumeral (Numeral.ofText?_of_spells spells)
          rwa [isFlag] at denotes
  | address isAddress gives =>
      cases gives with
      | bytes =>
          exact .address isAddress
      | text spells =>
          exact .addressText (Address.ofText?_of_spells spells isAddress)
  | fixedBytes gives =>
      cases gives with
      | bytes =>
          exact .fixedBytes _
      | text spells =>
          exact .fixedBytesHex spells.isEmpty_eq spells.ofHex?_eq
  | string text =>
      exact .text text
  | stringBytes content =>
      exact .textBytes content
  | bytes gives =>
      cases gives with
      | bytes =>
          exact .bytes _
      | text spells =>
          exact .bytesHex spells.ofHex?_eq

end Elementary

/-- The word of a value is what is encoded for its spelling. -/
theorem WordOf.encode?_spelled
    {type : WordType}
    {value : Value}
    {word : Bytes}
    (hash : Digest)
    (isWord : WordOf type value word) :
    type.encode? (spelled hash type.form value) = some word := by
  cases isWord with
  | address isAddress =>
      simp only [WordType.form, spelled, WordType.encode?,
        Address.ofText?_checksum isAddress, Option.map_some, List.leftpad,
        isAddress]
  | bool flag =>
      rfl
  | uint nonneg below =>
      exact if_pos ⟨nonneg, below⟩
  | int above below =>
      exact if_pos ⟨above, below⟩
  | fixedBytes short =>
      exact if_pos short

end Key

section Slots

variable {type : Key.Elementary} {value key : Value} {content : Bytes}
  {slot : Int}

/-- The bytes of a key are those of the value that it denotes. -/
theorem keyBytes_of_hashes
    (hash : Digest)
    (isType : type.IsType)
    (isContent : type.Hashes value content)
    (denotes : Key.Denotes type.form key value) :
    keyBytes hash type.name key = .ok content := by
  rw [← isType.form_ofName] at denotes
  have ofWhole
      (isWhole : isHashedWhole type.name)
      (denotes : Key.Denotes (Key.Form.ofName type.name) key (.bytes content)) :
      keyBytes hash type.name key = .ok content := by
    rw [keyBytes, if_pos isWhole]
    exact (wholeKey_eq_ok_iff isWhole).mpr denotes
  cases isContent with
  | @word type value content isWord =>
      obtain ⟨isNamed, isForm, notWhole⟩ :=
        Key.WordType.IsElementary.named isType
      have isSpelled := @Key.coerce_of_denotes hash _ _ _ denotes
      refine (keyBytes_eq_ok_iff notWhole).mpr ⟨type, _, isNamed, isSpelled, ?_⟩
      rw [show Key.Form.ofName (Key.Elementary.word type).name =
        type.form from isForm]
      exact isWord.encode?_spelled hash
  | string | bytes =>
      exact ofWhole (by decide) denotes

/-- The bytes of a key are those of the value that it spells. -/
theorem keyBytes_of_spells
    (hash : Digest)
    (isType : type.IsType)
    (isContent : type.Hashes value content)
    (spells : type.Spells value key) :
    keyBytes hash type.name key = .ok content :=
  keyBytes_of_hashes hash isType isContent spells.denotes

/--
The slot under a key is the hash of the bytes of the value that it spells.
-/
theorem mappingSlot_of_spells
    (hash : Digest)
    (isType : type.IsType)
    (inside : inSlotSpace slot)
    (isContent : type.Hashes value content)
    (spells : type.Spells value key) :
    mappingSlot hash key slot type.name =
      .ok (hash (content ++ Word.ofNat slot.toNat)) :=
  mappingSlot_eq_ok_iff.mpr
    ⟨inside, content, keyBytes_of_spells hash isType isContent spells, rfl⟩

/--
Under every spelling of a key of an elementary type the slot is the hash of
the word or the bytes of its value followed by the word of the mapping's slot,
so two spellings of one value lead to the same slot.
-/
theorem mappingSlot_of_spelling
    (hash : Digest)
    (isType : type.IsType)
    (inside : inSlotSpace slot)
    (isContent : type.Hashes value content)
    (spells : type.Spells value key) :
    mappingSlot hash key slot type.name =
      .ok (hash (content ++ Word.ofNat slot.toNat)) ∧
      ∀ other,
        type.Spells value other →
        mappingSlot hash other slot type.name =
          mappingSlot hash key slot type.name := by
  have isSlot := mappingSlot_of_spells hash isType inside isContent spells
  refine ⟨isSlot, fun other otherSpells => ?_⟩
  rw [isSlot]
  exact mappingSlot_of_spells hash isType inside isContent otherSpells

end Slots

/--
A negative number in decimal digits behind zeros, and in hex digits of either
letter case.
-/
theorem spells_negative :
    Numeral.Spells " -000254\t" (-254) ∧ Numeral.Spells "-0X00fE" (-254) := by
  have decimal : Numeral.Writes 10 "000254".toList 254 :=
    @Numeral.Writes.digits 10 _ [0, 0, 0, 2, 5, 4] (by decide) (by decide)
  have hex : Numeral.Writes 16 "00fE".toList 254 :=
    @Numeral.Writes.digits 16 _ [0, 0, 15, 14] (by decide) (by decide)
  have isBlank {blank : Char} (checked : Text.isBlank blank) :
      ∀ c ∈ [blank], Text.isBlank c :=
    List.forall_mem_singleton.mpr checked
  constructor
  · exact ⟨[' '],
      "-000254".toList, ['\t'], by
        decide, isBlank (by decide), isBlank (by decide),
      .decimal .minus decimal (by decide)⟩
  · exact ⟨[], "-0X00fE".toList, [], by decide, nofun, nofun,
      .hex .minus (by decide) (.inr rfl) hex⟩

/--
Three spellings of a number below zero lead to the hash of its two's complement
and the word of the slot.
-/
theorem mappingSlot_of_negative :
    mappingSlot Keccak.digest (.int (-254)) 5 "int16" =
        .ok (Keccak.digest
          ((List.replicate 31 255 ++ [2]) ++ (List.replicate 31 0 ++ [5]))) ∧
      mappingSlot Keccak.digest (.text " -000254\t") 5 "int16" =
        mappingSlot Keccak.digest (.int (-254)) 5 "int16" ∧
      mappingSlot Keccak.digest (.text "-0X00fE") 5 "int16" =
        mappingSlot Keccak.digest (.int (-254)) 5 "int16" := by
  have isName : (Key.Elementary.word (.int 16)).name = "int16" := by
    decide
  have isType : (Key.Elementary.word (.int 16)).IsType :=
    ⟨2, by decide, by decide, rfl⟩
  have isWord :
      Key.WordOf (.int 16) (.int (-254)) (List.replicate 31 255 ++ [2]) := by
    have isComplement :
        Word.ofNat (-254 % slotModulus).toNat =
          List.replicate 31 255 ++ [2] := by
      decide +kernel
    rw [← isComplement]
    exact .int (by decide) (by decide)
  have isSlotWord :
      Word.ofNat (5 : Int).toNat = List.replicate 31 0 ++ [5] := by
    decide +kernel
  obtain ⟨isSlot, sameSlot⟩ :=
    mappingSlot_of_spelling Keccak.digest isType (by decide : inSlotSpace 5)
      (.word isWord) (.int (.int (-254)))
  rw [isName] at isSlot sameSlot
  rw [isSlotWord] at isSlot
  exact ⟨isSlot, sameSlot _ (.int (.text spells_negative.1)),
    sameSlot _ (.int (.text spells_negative.2))⟩

end EvmStorage
