import EvmStorage.Position
import EvmStorage.Proofs.KeyNames
import EvmStorage.Proofs.RefusedKeys

namespace EvmStorage

/-!
# Names in the identifiers of key types

The identifier of a type that a contract declares holds the name that was
chosen for it, and the one of a text or byte string says where it lies.  The
words for contracts and enums are looked for in all of the identifier.  So a
name that holds such a word is mistaken for it, and the keys of the mapping are
encoded as values of another type.  Under all other names the entries of a
mapping are found as the kind of its key type asks for.
-/

namespace Key

/--
The identifiers of key types, with the name and number of a declaration or with
a location.
-/
inductive Identifier where
  | word (type : WordType)
  | payable
  | contract (name number : String)
  | choice (name number : String)
  | valueType (name number : String)
  | string (location : String)
  | bytes (location : String)
  deriving DecidableEq, Repr

/--
The types that the words in a text stand for: the one for contracts goes first.
-/
inductive Hints (s : String) : WordType → Prop where
  | contract
      (isPart : "contract".toList <:+: s.toList) :
      Hints s .address
  | choice
      (noContract : ¬ "contract".toList <:+: s.toList)
      (isPart : "enum".toList <:+: s.toList) :
      Hints s (.uint 8)

namespace Hints

variable {s other : String} {type : WordType}

/-- Texts that hold the same of the words stand for the same types. -/
theorem congr
    (sameWords :
      ∀ word ∈ ["contract", "enum"],
        word.toList <:+: s.toList ↔ word.toList <:+: other.toList) :
    Hints s type ↔ Hints other type := by
  have sameContract := sameWords "contract" (by simp)
  have sameChoice := sameWords "enum" (by simp)
  constructor
  · rintro (isPart | ⟨noContract, isPart⟩)
    · exact .contract (sameContract.mp isPart)
    · exact .choice (sameContract.not.mp noContract) (sameChoice.mp isPart)
  · rintro (isPart | ⟨noContract, isPart⟩)
    · exact .contract (sameContract.mpr isPart)
    · exact .choice (sameContract.not.mpr noContract) (sameChoice.mpr isPart)

/-- The words stand for addresses and for numbers of one byte. -/
theorem eq_address_or_uint
    (hints : Hints s type) :
    type = .address ∨ type = .uint 8 := by
  cases hints with
  | contract =>
      exact .inl rfl
  | choice =>
      exact .inr rfl

/-- A text with a word is taken for the type that the word stands for. -/
theorem typeName_eq
    (hints : Hints s type)
    (notAddress : s.startsWith "address" = false) :
    typeName ("t_" ++ s) = type.name := by
  cases hints with
  | contract isPart =>
      exact typeName_of_contractWord isPart
  | choice noContract isPart =>
      exact typeName_of_enumWord noContract notAddress isPart

/-- Where no word stands for a type, the beginning of the text decides. -/
theorem typeName_of_none
    (noHint : ∀ type, ¬ Hints s type)
    (notAddress : s.startsWith "address" = false) :
    typeName ("t_" ++ s) =
      if s.startsWith "string" then
        "string"
      else if s.startsWith "bytes_" then
        "bytes"
      else
        s := by
  have noContract : ¬ "contract".toList <:+: s.toList := fun isPart =>
    noHint _ (.contract isPart)
  exact typeName_of_neither noContract notAddress fun isPart =>
    noHint _ (.choice noContract isPart)

end Hints

namespace Identifier

/-- What stands behind the mark of identifiers. -/
def unmarked : Identifier → String
  | word type => type.name
  | payable => "address_payable"
  | contract name number => "contract(" ++ name ++ ")" ++ number
  | choice name number => "enum(" ++ name ++ ")" ++ number
  | valueType name number => "userDefinedValueType(" ++ name ++ ")" ++ number
  | string location => "string_" ++ location
  | bytes location => "bytes_" ++ location

/-- The text of an identifier. -/
def text (id : Identifier) : String :=
  "t_" ++ id.unmarked

/-- Whether the type exists, and the declaration has a number. -/
def IsWellFormed : Identifier → Prop
  | word type => type.IsElementary
  | contract _ number | choice _ number | valueType _ number =>
      number.toList.all Char.isDigit
  | payable | string _ | bytes _ => True

/--
The elementary type of the keys; the keys of declared value types have none.
-/
def type? : Identifier → Option Elementary
  | word type => some (.word type)
  | payable | contract _ _ => some (.word .address)
  | choice _ _ => some (.word (.uint 8))
  | valueType _ _ => none
  | string _ => some .string
  | bytes _ => some .bytes

/-- The name of the type of the keys. -/
def name (id : Identifier) : String :=
  (id.type?.map Elementary.name).getD id.unmarked

/-- The type of the keys is one that there is. -/
theorem isType_of_type?
    {type : Elementary}
    (id : Identifier)
    (wellFormed : id.IsWellFormed)
    (isType : id.type? = some type) :
    type.IsType := by
  cases id with
  | word =>
      cases isType
      exact wellFormed
  | choice =>
      cases isType
      exact ⟨1, by decide, by decide, rfl⟩
  | valueType =>
      cases isType
  | payable | contract | string | bytes =>
      cases isType
      trivial

/--
Whether the name or the location in an identifier makes it be taken for another
type.
-/
inductive MistakenFor : Identifier → WordType → Prop where
  | choice
      {name number : String}
      (isPart : "contract".toList <:+: name.toList) :
      MistakenFor (choice name number) .address
  | valueType
      {name number : String}
      {other : WordType}
      (hints : Hints name other) :
      MistakenFor (valueType name number) other
  | string
      {location : String}
      {other : WordType}
      (hints : Hints location other) :
      MistakenFor (string location) other
  | bytes
      {location : String}
      {other : WordType}
      (hints : Hints location other) :
      MistakenFor (bytes location) other

/-- What a declared value type is taken for depends on its name alone. -/
theorem hints_valueType_iff
    {chosen number : String}
    {type : WordType}
    (digits : number.toList.all Char.isDigit) :
    Hints (valueType chosen number).unmarked type ↔ Hints chosen type := by
  refine Hints.congr fun word isWord => ?_
  have isText :
      (valueType chosen number).unmarked =
        "userDefinedValueType" ++ "(" ++ chosen ++ ")" ++ number :=
    rfl
  have notInKind :
      ∀ word ∈ ["contract", "enum"],
        ¬ word.toList <:+: "userDefinedValueType".toList := by
    decide
  have areWords :
      ∀ word ∈ ["contract", "enum"],
        word.toList ≠ [] ∧ word.toList.all fun c =>
          !c.isDigit && c != '(' && c != ')' := by
    decide
  rw [isText,
    infix_declared_iff (areWords word isWord).1 (areWords word isWord).2 digits]
  simp only [notInKind word isWord, false_or]

/-- What a text or byte string is taken for depends on where it lies alone. -/
theorem hints_located_iff
    {kind location : String}
    {type : WordType}
    (noWord : ∀ word ∈ ["contract", "enum"], ¬ word.toList <:+: kind.toList) :
    Hints (kind ++ "_" ++ location) type ↔ Hints location type := by
  refine Hints.congr fun word isWord => ?_
  have isText :
      (kind ++ "_" ++ location).toList =
        kind.toList ++ '_' :: location.toList := by
    simp
  have noSeparator : ∀ word ∈ ["contract", "enum"], '_' ∉ word.toList := by
    decide
  rw [isText, infix_append_cons_iff (noSeparator word isWord)]
  simp only [noWord word isWord, false_or]

/-- A text that begins in its own way does not begin in another. -/
theorem not_startsWith_of_kind
    {part : String}
    (kind rest : String)
    (apart : ¬ part.toList <+: kind.toList ∧ ¬ kind.toList <+: part.toList) :
    (kind ++ rest).startsWith part = false := by
  rw [String.startsWith_string_eq_false_iff, String.toList_append]
  intro begins
  rcases List.prefix_or_prefix_of_prefix begins (List.prefix_append _ _) with
    inKind | inPart
  · exact apart.1 inKind
  · exact apart.2 inPart

/--
What a declared value type begins with is no beginning of an elementary type.
-/
theorem not_startsWith_valueType
    (chosen number : String) :
    ∀ part ∈ ["address", "string", "bytes_"],
      (valueType chosen number).unmarked.startsWith part = false := by
  have apart :
      ∀ part ∈ ["address", "string", "bytes_"],
        ¬ part.toList <+: "userDefinedValueType(".toList ∧
          ¬ "userDefinedValueType(".toList <+: part.toList := by
    decide
  have isText :
      (valueType chosen number).unmarked =
        "userDefinedValueType(" ++ chosen ++ ")" ++ number :=
    rfl
  intro part isPart
  rw [isText, String.append_assoc, String.append_assoc]
  exact not_startsWith_of_kind "userDefinedValueType(" _ (apart part isPart)

variable {id : Identifier} {other : WordType}

/-- A mistaken identifier leads to the name of the type that it is taken for. -/
theorem MistakenFor.typeName_eq
    (mistaken : id.MistakenFor other)
    (wellFormed : id.IsWellFormed) :
    typeName id.text = other.name := by
  cases mistaken with
  | @choice chosen number isPart =>
      have isPart :=
        (@infix_declared_iff "enum" chosen number "contract" (by decide)
          (by decide) wellFormed).mpr (.inr isPart)
      exact typeName_of_contractWord isPart
  | @valueType chosen number other hints =>
      have notAddress :=
        not_startsWith_valueType chosen number "address" (by simp)
      exact ((hints_valueType_iff wellFormed).mpr hints).typeName_eq notAddress
  | @string location other hints =>
      have hints := (@hints_located_iff "string" _ _ (by decide)).mpr hints
      exact hints.typeName_eq
        (not_startsWith_of_kind "string_" location (by decide))
  | @bytes location other hints =>
      have hints := (@hints_located_iff "bytes" _ _ (by decide)).mpr hints
      exact hints.typeName_eq
        (not_startsWith_of_kind "bytes_" location (by decide))

/-- An identifier that is not mistaken leads to the name of its own type. -/
theorem typeName_of_notMistaken
    (wellFormed : id.IsWellFormed)
    (notMistaken : ∀ other, ¬ id.MistakenFor other) :
    typeName id.text = id.name := by
  cases id with
  | word type =>
      exact typeName_of_word wellFormed
  | payable =>
      decide +kernel
  | contract chosen number =>
      exact typeName_of_contract chosen number
  | choice chosen number =>
      exact typeName_of_enum
        (fun isPart => notMistaken _ (.choice isPart)) wellFormed
  | valueType chosen number =>
      have noHint : ∀ type, ¬ Hints (valueType chosen number).unmarked type :=
        fun type hints =>
        notMistaken type
          (.valueType ((hints_valueType_iff wellFormed).mp hints))
      have beginsNot := not_startsWith_valueType chosen number
      rw [text, Hints.typeName_of_none noHint (beginsNot "address" (by simp)),
        beginsNot "string" (by simp), beginsNot "bytes_" (by simp)]
      rfl
  | string location =>
      have noHint : ∀ type, ¬ Hints ("string_" ++ location) type :=
        fun type hints =>
        notMistaken type
          (.string ((@hints_located_iff "string" _ _ (by decide)).mp hints))
      have notAddress :=
        @not_startsWith_of_kind "address" "string_" location (by decide)
      have begins : ("string_" ++ location).startsWith "string" = true := by
        rw [String.startsWith_string_iff]
        simp
      have isName := Hints.typeName_of_none noHint notAddress
      rwa [begins] at isName
  | bytes location =>
      have noHint : ∀ type, ¬ Hints ("bytes_" ++ location) type :=
        fun type hints =>
        notMistaken type
          (.bytes ((@hints_located_iff "bytes" _ _ (by decide)).mp hints))
      have notAddress :=
        @not_startsWith_of_kind "address" "bytes_" location (by decide)
      have notString :=
        @not_startsWith_of_kind "string" "bytes_" location (by decide)
      have begins : ("bytes_" ++ location).startsWith "bytes_" = true := by
        rw [String.startsWith_string_iff]
        simp
      have isName := Hints.typeName_of_none noHint notAddress
      rwa [notString, begins] at isName

/-- The text of a declared value type is not the name of an elementary type. -/
theorem unmarked_valueType_ne
    {name : String}
    (chosen number : String)
    (apart : ¬ "us".toList <+: name.toList) :
    (valueType chosen number).unmarked ≠ name := by
  rintro rfl
  have isText :
      (valueType chosen number).unmarked =
        "userDefinedValueType(" ++ chosen ++ ")" ++ number :=
    rfl
  rw [isText, String.append_assoc, String.append_assoc, String.toList_append]
    at apart
  have begins : "us".toList <+: "userDefinedValueType(".toList := by
    decide
  exact apart (begins.trans (List.prefix_append _ _))

/-- The keys of a declared value type are not supported. -/
theorem mappingSlot_of_valueType
    {key : Value}
    {slot : Int}
    (hash : Digest)
    (chosen number : String) :
    mappingSlot hash key slot (valueType chosen number).unmarked =
      .error (.unsupported (.keyType (valueType chosen number).unmarked)) := by
  have isNot {name : String} (apart : ¬ "us".toList <+: name.toList) :=
    unmarked_valueType_ne chosen number apart
  have notWhole : isHashedWhole (valueType chosen number).unmarked = false := by
    simp only [isHashedWhole,
      isNot (by decide : ¬ "us".toList <+: "string".toList),
      isNot (by decide : ¬ "us".toList <+: "bytes".toList), decide_false,
      Bool.or_self]
  have unnamed :
      WordType.ofName? (valueType chosen number).unmarked = none := by
    have isText :
        (valueType chosen number).unmarked.toList =
          "userDefinedValueType(".toList ++
            (chosen ++ (")" ++ number)).toList := by
      rw [← String.toList_append, ← String.append_assoc, ← String.append_assoc]
      rfl
    unfold WordType.ofName?
    rw [isText]
    simp [isNot (by decide : ¬ "us".toList <+: "address".toList),
      isNot (by decide : ¬ "us".toList <+: "function".toList)]
  simp only [mappingSlot, notWhole, keyAndSlotWords, unnamed]
  rfl

/-- What an identifier is mistaken for are addresses or numbers of one byte. -/
theorem MistakenFor.eq_address_or_uint
    (mistaken : id.MistakenFor other) :
    other = .address ∨ other = .uint 8 := by
  cases mistaken with
  | choice isPart =>
      exact .inl rfl
  | valueType hints | string hints | bytes hints =>
      exact hints.eq_address_or_uint

/-- An identifier is never mistaken for the type that it stands for. -/
theorem MistakenFor.name_ne
    {type : Elementary}
    (mistaken : id.MistakenFor other)
    (isType : id.type? = some type) :
    type ≠ .word .bool ∧ other.name ≠ type.name := by
  cases mistaken with
  | choice isPart =>
      cases isType
      exact ⟨by decide, by decide⟩
  | valueType hints =>
      cases isType
  | string hints | bytes hints =>
      cases isType
      obtain rfl | rfl := hints.eq_address_or_uint <;>
        exact ⟨by decide, by decide⟩

end Identifier

end Key

section Slots

variable {type : Key.Elementary} {slot : Int}

/--
What is no value is refused under every type but truth values, by the name of
the type.
-/
theorem mappingSlot_null
    (hash : Digest)
    (isType : type.IsType)
    (notFlag : type ≠ .word .bool) :
    mappingSlot hash .null slot type.name =
      .error (.invalidKey (.invalid type.name .null)) ∨
      mappingSlot hash .null slot type.name =
        .error (.invalidKey (.notEncodable .null type.name)) := by
  cases type with
  | word type =>
      obtain ⟨isNamed, isForm, notWhole⟩ :=
        Key.WordType.IsElementary.named isType
      simp only [mappingSlot, Key.Elementary.name, notWhole, keyAndSlotWords,
        isNamed, Key.coerce, isForm]
      cases type with
      | bool =>
          exact absurd rfl notFlag
      | address =>
          exact .inl rfl
      | uint bits | int bits | fixedBytes size =>
          exact .inr rfl
  | string | bytes =>
      exact .inl rfl

end Slots

namespace Position

variable {position : Position} {mapping : TypeEntry} {id : Key.Identifier}
  {key : Value}

/-- The entry of a mapping under a key that is encoded under a given name. -/
def entryNamed
    (hash : Digest)
    (position : Position)
    (mapping : TypeEntry)
    (key : Value)
    (name : String) :
    Except Fault Position :=
  (mappingSlot hash key position.slot name).map fun slot => {
    position with
    slot := slot
    offset := 0
    type := mapping.value.getD .null
  }

/--
The entry of a mapping under a key of the type that an identifier stands for;
keys of declared value types are not supported.
-/
def entryOfKind
    (hash : Digest)
    (position : Position)
    (mapping : TypeEntry)
    (key : Value)
    (id : Key.Identifier) :
    Except Fault Position :=
  match id.type? with
  | some type => position.entryNamed hash mapping key type.name
  | none => .error (.unsupported (.keyType id.unmarked))

/--
The entry of a mapping is found under the name that its key type leads to.
-/
theorem entry_eq_entryNamed
    {keyType : String}
    (hash : Digest)
    (isKeyType : mapping.key = some (.text keyType)) :
    position.entry hash mapping key =
      position.entryNamed hash mapping key (Key.typeName keyType) := by
  simp only [entry, isKeyType, Option.getD_some, entryNamed]
  cases mappingSlot hash key position.slot (Key.typeName keyType) <;> rfl

/--
Under the name of its own type an entry is found as the kind of the type asks
for.
-/
theorem entryNamed_name
    (hash : Digest) :
    position.entryNamed hash mapping key id.name =
      position.entryOfKind hash mapping key id := by
  cases id with
  | valueType chosen number =>
      show (mappingSlot hash key position.slot _).map _ = _
      exact congrArg _
        (Key.Identifier.mappingSlot_of_valueType hash chosen number)
  | word | payable | contract | choice | string | bytes =>
      rfl

/--
The entries of a mapping are those that the kind of its key type asks for.
-/
theorem entry_of_notMistaken
    (hash : Digest)
    (wellFormed : id.IsWellFormed)
    (isKeyType : mapping.key = some (.text id.text))
    (notMistaken : ∀ other, ¬ id.MistakenFor other)
    (key : Value) :
    position.entry hash mapping key =
      position.entryOfKind hash mapping key id := by
  rw [entry_eq_entryNamed hash isKeyType,
    Key.Identifier.typeName_of_notMistaken wellFormed notMistaken,
    entryNamed_name]

/--
The entries of a mapping are those of the type that its key type is mistaken
for.
-/
theorem entry_of_mistaken
    {other : Key.WordType}
    (hash : Digest)
    (wellFormed : id.IsWellFormed)
    (isKeyType : mapping.key = some (.text id.text))
    (mistaken : id.MistakenFor other)
    (key : Value) :
    position.entry hash mapping key =
      position.entryNamed hash mapping key other.name := by
  rw [entry_eq_entryNamed hash isKeyType, mistaken.typeName_eq wellFormed]

/--
Under a type that is none of truth values, what is no value is refused by its
name.
-/
theorem entryNamed_null
    {type : Key.Elementary}
    (hash : Digest)
    (isType : type.IsType)
    (notFlag : type ≠ .word .bool) :
    position.entryNamed hash mapping .null type.name =
        .error (.invalidKey (.invalid type.name .null)) ∨
      position.entryNamed hash mapping .null type.name =
        .error (.invalidKey (.notEncodable .null type.name)) := by
  unfold entryNamed
  rcases mappingSlot_null hash isType notFlag with refused | refused
  · exact .inl (by rw [refused]; rfl)
  · exact .inr (by rw [refused]; rfl)

/-- A mistaken key type leads elsewhere than the kind of the type asks for. -/
theorem entryNamed_ne_entryOfKind
    {other : Key.WordType}
    (hash : Digest)
    (wellFormed : id.IsWellFormed)
    (mistaken : id.MistakenFor other) :
    position.entryNamed hash mapping .null other.name ≠
      position.entryOfKind hash mapping .null id := by
  have otherIsType : (Key.Elementary.word other).IsType := by
    obtain rfl | rfl := mistaken.eq_address_or_uint
    · trivial
    · exact ⟨1, by decide, by decide, rfl⟩
  have otherNotFlag : Key.Elementary.word other ≠ .word .bool := by
    obtain rfl | rfl := mistaken.eq_address_or_uint <;> decide
  have refused :
      position.entryNamed hash mapping .null other.name =
          .error (.invalidKey (.invalid other.name .null)) ∨
        position.entryNamed hash mapping .null other.name =
          .error (.invalidKey (.notEncodable .null other.name)) :=
    entryNamed_null hash otherIsType otherNotFlag
  unfold entryOfKind
  cases isKind : id.type? with
  | none =>
      rcases refused with refused | refused <;> simp [refused]
  | some type =>
      obtain ⟨notFlag, namesDiffer⟩ := mistaken.name_ne isKind
      have elementary := id.isType_of_type? wellFormed isKind
      rcases refused with refused | refused <;>
        rcases @entryNamed_null position mapping type hash elementary
          notFlag with asked | asked <;>
        simp [refused, asked, namesDiffer]

/--
Unless an identifier is mistaken for another type, the entries of a mapping with
such keys are those that the kind of the key type asks for, and every value of
the type has one.

If it is mistaken, all keys are encoded as values of the other type, which does
not come to the same.
-/
theorem entry_of_identifier
    (hash : Digest)
    (wellFormed : id.IsWellFormed)
    (isKeyType : mapping.key = some (.text id.text)) :
    ((∀ other, ¬ id.MistakenFor other) →
        (∀ key, position.entry hash mapping key =
          position.entryOfKind hash mapping key id) ∧
          ∀ type,
            id.type? = some type →
            inSlotSpace position.slot →
            ∀ key,
              type.Takes key →
              ∃ slot,
                mappingSlot hash key position.slot type.name = .ok slot ∧
                  position.entry hash mapping key =
                    .ok { position with
                          slot := slot, offset := 0,
                            type := mapping.value.getD .null }) ∧
      ∀ other,
        id.MistakenFor other →
        (∀ key, position.entry hash mapping key =
            position.entryNamed hash mapping key other.name) ∧
          ∃ key,
            position.entry hash mapping key ≠
              position.entryOfKind hash mapping key id := by
  constructor
  · intro notMistaken
    have isEntry :=
      @entry_of_notMistaken position mapping id hash wellFormed isKeyType
        notMistaken
    refine ⟨isEntry, fun type isType inside key takes => ?_⟩
    have elementary : type.IsType := id.isType_of_type? wellFormed isType
    obtain ⟨slot, isSlot⟩ :=
      (exists_mappingSlot_iff hash elementary inside).mpr (.inl takes)
    refine ⟨slot, isSlot, ?_⟩
    simp only [isEntry key, entryOfKind, isType, entryNamed, isSlot]
    rfl
  · intro other mistaken
    have isEntry :=
      @entry_of_mistaken position mapping id other hash wellFormed
        isKeyType mistaken
    refine ⟨isEntry, .null, ?_⟩
    rw [isEntry]
    exact entryNamed_ne_entryOfKind hash wellFormed mistaken

end Position

/-- A mapping to numbers whose keys have a given type. -/
def numbersUnder (keyType : Key.Identifier) : TypeEntry where
  id := "numbers"
  label := .text "mapping"
  encoding := .mapping
  size := slotSize
  base := none
  key := some (.text keyType.text)
  value := some (.text "t_uint256")
  members := none

/-- A mapping in the last slot. -/
def lastSlot : Position where
  slot := slotModulus - 1
  offset := 0
  type := .text "numbers"
  address := "0x00"
  block := .text "latest"

/--
The word for contracts is another one in capitals, so this enum is not
mistaken.
-/
theorem entry_of_capitalName :
    ∃ slot,
      mappingSlot Keccak.digest (.text " 0x0F")
        (slotModulus - 1) "uint8" = .ok slot ∧
        lastSlot.entry Keccak.digest
          (numbersUnder (.choice "Contract_enum" "12"))
            (.text " 0x0F") =
          .ok { lastSlot with slot := slot, type := .text "t_uint256" } := by
  have wellFormed : (Key.Identifier.choice "Contract_enum" "12").IsWellFormed :=
    show "12".toList.all Char.isDigit by decide
  have notMistaken :
      ∀ other,
        ¬ (Key.Identifier.choice "Contract_enum" "12").MistakenFor other := by
    intro other mistaken
    cases mistaken with
    | choice isPart =>
        exact absurd isPart (by decide)
  have isNumber : Numeral.ofText? " 0x0F" = some 15 := by
    decide +kernel
  obtain ⟨promised, -⟩ :=
    @Position.entry_of_identifier lastSlot
      (numbersUnder (.choice "Contract_enum" "12")) _
      Keccak.digest wellFormed rfl
  exact (promised notMistaken).2 (.word (.uint 8)) rfl (by decide)
    (.text " 0x0F") (.uint (.text isNumber) (by decide) (by decide))

/--
Names that are mistaken: the numbers of this enum are refused as addresses, and
the keys of this value type lead to a slot though such keys are not supported.
-/
theorem entry_of_mistakenNames :
    (Key.Identifier.choice "subcontractState" "7").text =
      "t_enum(subcontractState)7" ∧
      (∃ found,
        lastSlot.entryOfKind Keccak.digest
          (numbersUnder (.choice "subcontractState" "7"))
          (.int 1) (.choice "subcontractState" "7") = .ok found) ∧
      lastSlot.entry Keccak.digest
        (numbersUnder (.choice "subcontractState" "7")) (.int 1) =
        .error (.invalidKey (.invalid "address" (.int 1))) ∧
      (Key.Identifier.valueType "enumIndex" "9").text =
        "t_userDefinedValueType(enumIndex)9" ∧
      lastSlot.entryOfKind Keccak.digest
        (numbersUnder (.valueType "enumIndex" "9"))
          (.int 1) (.valueType "enumIndex" "9") =
        .error (.unsupported (.keyType "userDefinedValueType(enumIndex)9")) ∧
      ∃ found,
        lastSlot.entry Keccak.digest
          (numbersUnder (.valueType "enumIndex" "9")) (.int 1) =
          .ok found := by
  have takes : (Key.Elementary.word (.uint 8)).Takes (.int 1) :=
    .uint (.int 1) (by decide) (by decide)
  have inside : inSlotSpace lastSlot.slot := by
    decide
  have elementary : (Key.Elementary.word (.uint 8)).IsType :=
    ⟨1, by decide, by decide, rfl⟩
  obtain ⟨slot, isSlot⟩ :=
    (exists_mappingSlot_iff Keccak.digest elementary inside).mpr (.inl takes)
  have isEntry (keyType : Key.Identifier) :
      lastSlot.entryNamed Keccak.digest (numbersUnder keyType)
        (.int 1) "uint8" =
        .ok { lastSlot with slot := slot, type := .text "t_uint256" } := by
    unfold Position.entryNamed
    rw [show "uint8" = (Key.Elementary.word (.uint 8)).name by decide, isSlot]
    rfl
  have choiceFormed :
      (Key.Identifier.choice "subcontractState" "7").IsWellFormed :=
    show "7".toList.all Char.isDigit by decide
  have valueTypeFormed :
      (Key.Identifier.valueType "enumIndex" "9").IsWellFormed :=
    show "9".toList.all Char.isDigit by decide
  refine ⟨by decide, ⟨_, isEntry _⟩, ?_, by decide, rfl, ?_⟩
  · rw [Position.entry_of_mistaken Keccak.digest choiceFormed rfl
      (.choice (by decide))]
    rfl
  · have mistaken :
        (Key.Identifier.valueType "enumIndex" "9").MistakenFor (.uint 8) :=
      .valueType (.choice (by decide) (by decide))
    have sameEntry :=
      @Position.entry_of_mistaken lastSlot
        (numbersUnder (.valueType "enumIndex" "9")) _ _
        Keccak.digest valueTypeFormed rfl mistaken (.int 1)
    exact ⟨_, sameEntry.trans (isEntry _)⟩

end EvmStorage
