import EvmStorage.Proofs.ArrayElements

namespace EvmStorage

/-!
# Structs and their members

A whole struct is decoded from the words of its slots, member by member, and
its members are found by adding slots and read one by one.  Both ways lead to
the same values under the same labels.  Members whose values lie elsewhere are
left out of the whole struct.
-/

namespace Cursor

variable {hash : Digest} {layout : Layout} {cursor : Cursor}
  {members : List Variable}

/-- The cursor on a member of a struct. -/
def memberAt
    (cursor : Cursor)
    (member : Variable)
    (memberType : TypeEntry)
    (path : String) :
    Cursor where
  position := {
    cursor.position with
    slot := (cursor.position.slot + member.slot) % slotModulus
    offset := member.offset
    type := member.type
  }
  type := memberType
  path := .text (path ++ stepText (.field member.label))

/-- A step to a member leads to its place if the table has its type. -/
theorem step_field_eq_ok_iff
    {member : Variable}
    {path : String}
    {next : Cursor}
    (onType : layout.lookup cursor.position.type = .ok cursor.type)
    (isText : cursor.path = .text path)
    (hasMembers : cursor.type.members = some members)
    (distinct : DistinctLabels members)
    (isMember : member ∈ members)
    (isName : member.label.isName) :
    cursor.step hash layout (.field member.label) = .ok next ↔
      ∃ memberType,
        layout.lookup member.type = .ok memberType ∧
          cursor.memberAt member memberType path = next := by
  have isStruct : cursor.type.isStruct :=
    TypeEntry.isStruct_iff.mpr ⟨members, hasMembers⟩
  have found : cursor.type.member member.label = .ok member := by
    simp [TypeEntry.member, hasMembers,
      distinct.find?_label isMember (Value.isKey_of_isName isName)]
  have canShow : canShowStep (.field member.label) = true :=
    Value.canShow_of_isName isName
  simp only [step, canShow, ↓reduceIte, Position.step, onType,
    Position.stepWithin, isStruct, Position.member, found, isText, extendPath,
    Outcome.ok_bind, Outcome.pure_eq_ok, Cursor.ofPosition,
    Outcome.bind_eq_ok_iff, Except.ok.injEq]
  rfl

end Cursor

namespace Contract

variable {hash : Digest} {contract : Contract} {cursor : Cursor}
  {memory : Memory} {provider : Provider σ} {state : σ}
  {members : List Variable}

/-- A cursor on a member reads the words at the place of the member. -/
theorem read_memberAt
    {member : Variable}
    {memberType : TypeEntry}
    (acyclic : contract.layout.Acyclic)
    (sizes : contract.layout.ExactSizes)
    (found : contract.layout.lookup member.type = .ok memberType)
    (inPlace : Decode.storedElsewhere contract.layout memberType = .ok false)
    (serves :
      provider.Serves cursor.position.address cursor.position.block
        memory state)
    (canShow : cursor.position.block.canShow)
    (path : String) :
    (contract.read hash provider
      (cursor.memberAt member memberType path) state).1 =
      Decode.value hash contract.layout
        (memory.words (cursor.position.slot + member.slot)
          (exactSpan memberType.size).toNat)
        member.offset memberType := by
  have inTable : memberType ∈ contract.layout.types :=
    Layout.mem_types_of_lookup found
  obtain ⟨positive, bounded⟩ := sizes memberType inTable
  have servesMember :
      provider.Serves (cursor.memberAt member memberType path).position.address
        (cursor.memberAt member memberType path).position.block memory state :=
    serves
  calc
    (contract.read hash provider
      (cursor.memberAt member memberType path) state).1
        = Decode.value hash contract.layout
            (memory.words ((cursor.position.slot + member.slot) % slotModulus)
              (exactSpan memberType.size).toNat)
            member.offset memberType :=
      read_of_inPlace acyclic inTable inPlace positive.le bounded
        (fun _ => ⟨positive, inSlotSpace_emod _⟩) servesMember canShow
    _ = _ := by rw [Memory.words_emod]

/--
The value of a member in the words of its struct is what a cursor on the member
reads.
-/
theorem isMemberValue_iff
    (cursor : Cursor)
    {member : Variable}
    {memberType : TypeEntry}
    {value : Value}
    {count : Nat}
    (acyclic : contract.layout.Acyclic)
    (sizes : contract.layout.ExactSizes)
    (found : contract.layout.lookup member.type = .ok memberType)
    (nonneg : 0 ≤ member.slot)
    (isName : member.label.isName)
    (serves :
      provider.Serves cursor.position.address cursor.position.block
        memory state)
    (canShow : cursor.position.block.canShow)
    (path : String) :
    Decode.IsMemberValue hash contract.layout
      (memory.words cursor.position.slot count)
        member value ↔
      Decode.storedElsewhere contract.layout memberType = .ok false ∧
        member.slot + exactSpan memberType.size ≤ count ∧
        (contract.read hash provider
          (cursor.memberAt member memberType path) state).1 =
          .ok value := by
  obtain ⟨positive, _⟩ := sizes memberType (Layout.mem_types_of_lookup found)
  have isLabel : member.label.isLabel :=
    Value.isLabel_of_isKey (Value.isKey_of_isName isName)
  have span := exactSpan_pos positive
  have inside_iff :
      exactSpan memberType.size ≤
          (between (memory.words cursor.position.slot count) member.slot
            (member.slot + exactSpan memberType.size)).length ↔
        member.slot + exactSpan memberType.size ≤ count := by
    rw [length_between nonneg (by omega), Memory.length_words]
    omega
  simp only [Decode.IsMemberValue, found, Except.ok.injEq, exists_eq_left',
    isLabel, and_true, inside_iff]
  constructor
  · rintro ⟨inPlace, fits, decoded⟩
    rw [memory.between_words nonneg span.le fits] at decoded
    exact ⟨inPlace, fits, by
      rw [read_memberAt acyclic sizes found inPlace serves canShow, decoded]⟩
  · rintro ⟨inPlace, fits, isRead⟩
    rw [read_memberAt acyclic sizes found inPlace serves canShow] at isRead
    rw [memory.between_words nonneg span.le fits]
    exact ⟨inPlace, fits, isRead⟩

/--
A whole struct and its members, read one by one, have the same values.

What is read of the whole struct are the members that do not lie elsewhere, in
their order and under their labels, and a cursor on a member reads the value
under its label.  The other way round the whole struct is read if all these
members are, and end within its slots, at a block that can be shown.
-/
theorem read_struct_iff_read_members
    {position : Position}
    {path : String}
    (acyclic : contract.layout.Acyclic)
    (sizes : contract.layout.ExactSizes)
    (onPosition :
      Cursor.ofPosition contract.layout position (.text path) = .ok cursor)
    (inPlace : cursor.type.encoding = .inplace)
    (noBase : cursor.type.base = none)
    (hasMembers : cursor.type.members = some members)
    (distinct : DistinctLabels members)
    (nonneg : ∀ member ∈ members, 0 ≤ member.slot)
    (names : ∀ member ∈ contract.layout.ownMembers members, member.label.isName)
    (serves : provider.Serves position.address position.block memory state) :
    (∀ value,
      (contract.read hash provider cursor state).1 = .ok value →
      ∃ entries,
        value = .struct entries ∧
          entries.map Prod.fst =
            (contract.layout.ownMembers members).map Variable.label ∧
          ∀ label member,
            (label, member) ∈ entries →
            ∃ next,
              cursor.step hash contract.layout (.field label) = .ok next ∧
                ∀ later,
                  provider.Serves position.address position.block memory later →
                  (contract.read hash provider next later).1 = .ok member) ∧
    (position.block.canShow →
      (∀ member ∈ contract.layout.ownMembers members,
        (∀ memberType span whole,
          contract.layout.lookup member.type = .ok memberType →
          slotSpan memberType.size = .ok span →
          slotSpan cursor.type.size = .ok whole →
          member.slot + span ≤ whole) ∧
        ∃ next value later,
          provider.Serves position.address position.block memory later ∧
            cursor.step hash contract.layout (.field member.label) = .ok next ∧
            (contract.read hash provider next later).1 = .ok value) →
      ∃ entries,
        (contract.read hash provider cursor state).1 =
          .ok (.struct entries)) := by
  simp only [Cursor.ofPosition, Outcome.bind_eq_ok_iff] at onPosition
  obtain ⟨type, onType, isCursor⟩ := onPosition
  cases isCursor
  have inTable := Layout.mem_types_of_lookup onType
  obtain ⟨positive, bounded⟩ := sizes type inTable
  have isStruct : type.isStruct :=
    TypeEntry.isStruct_iff.mpr ⟨members, hasMembers⟩
  have sized : ∀ member ∈ members, contract.layout.HasExactSize member.type :=
    fun _ _ => sizes.hasExactSize _
  have keys : DistinctKeys (contract.layout.ownMembers members) :=
    DistinctLabels.keys (List.Pairwise.filter _ distinct)
      fun member isOwn => Value.isKey_of_isName (names member isOwn)
  have read (canShow : position.block.canShow) :
      (contract.read hash provider
        { position, type, path := .text path } state).1 =
        (Decode.struct hash contract.layout
          (memory.words position.slot (exactSpan type.size).toNat) type).map
            .struct := by
    rw [read_of_inPlace acyclic inTable
      (Decode.storedElsewhere_of_base_isNone inPlace noBase) positive.le bounded
      (fun isScalar =>
        absurd isScalar
          (by simp [TypeEntry.isScalar_of_isStruct isStruct])) serves canShow,
      Decode.value_of_isStruct acyclic inTable isStruct]
  constructor
  · intro value isRead
    have canShow := canShow_of_read positive bounded isRead
    rw [read canShow, Outcome.map_eq_ok_iff] at isRead
    obtain ⟨entries, decoded, rfl⟩ := isRead
    rw [Decode.struct_eq_ok_iff hasMembers sized keys] at decoded
    obtain ⟨found, areFound, rfl⟩ := decoded
    refine ⟨_, rfl, ?_, ?_⟩
    · exact List.map_fst_zip (by simp [areFound.length_eq])
    · intro label value isEntry
      rw [List.zip_map_left, List.mem_map] at isEntry
      obtain ⟨⟨member, _⟩, isPair, isEntry⟩ := isEntry
      cases isEntry
      have isOwn := (List.of_mem_zip isPair).1
      have isMember := List.mem_of_mem_filter isOwn
      have isValue := (List.forall₂_iff_zip.mp areFound).2 isPair
      obtain ⟨memberType, isFound, _⟩ := id isValue
      refine ⟨_,
        (Cursor.step_field_eq_ok_iff onType rfl hasMembers distinct isMember
        (names member isOwn)).mpr ⟨memberType, isFound, rfl⟩,
          fun later servesLater => ?_⟩
      rw [isMemberValue_iff
        { position, type, path := .text path } acyclic sizes isFound
        (nonneg member isMember) (names member isOwn) servesLater canShow path]
        at isValue
      exact isValue.2.2
  · intro canShow membersRead
    have memberValues :
        ∀ member ∈ contract.layout.ownMembers members,
          ∃ value,
            Decode.IsMemberValue hash contract.layout
              (memory.words position.slot (exactSpan type.size).toNat) member
                value := by
      intro member isOwn
      have isMember := List.mem_of_mem_filter isOwn
      obtain ⟨endsInside, next, value, later, servesLater, reached, isRead⟩ :=
        membersRead member isOwn
      obtain ⟨memberType, isFound, rfl⟩ :=
        (Cursor.step_field_eq_ok_iff onType rfl hasMembers distinct isMember
          (names member isOwn)).mp reached
      have memberInTable := Layout.mem_types_of_lookup isFound
      obtain ⟨memberPositive, memberBounded⟩ := sizes memberType memberInTable
      have notElsewhere :
          Decode.storedElsewhere contract.layout memberType ≠ .ok true := by
        intro isElsewhere
        have leftIn := List.of_mem_filter isOwn
        simp [(Layout.liesElsewhere_iff isFound).mpr isElsewhere] at leftIn
      have memberInPlace :
          Decode.storedElsewhere contract.layout memberType = .ok false :=
        storedElsewhere_of_read acyclic memberInTable notElsewhere isRead
      have fits :=
        endsInside memberType _ _ isFound
          (slotSpan_eq memberPositive.le memberBounded)
          (slotSpan_eq positive.le bounded)
      refine ⟨value, ?_⟩
      rw [isMemberValue_iff
        { position, type, path := .text path } acyclic sizes isFound
        (nonneg member isMember) (names member isOwn) servesLater canShow path]
      exact ⟨memberInPlace, fits.trans (Int.self_le_toNat _), isRead⟩
    obtain ⟨found, areFound⟩ := Outcome.exists_forall₂ memberValues
    refine ⟨((contract.layout.ownMembers members).map Variable.label).zip found,
      ?_⟩
    rw [read canShow, Outcome.map_eq_ok_iff]
    exact ⟨_, (Decode.struct_eq_ok_iff hasMembers sized keys).mpr
      ⟨found, areFound, rfl⟩, rfl⟩

/-- A type of one byte. -/
def byteType : TypeEntry where
  id := "byte"
  label := .text "uint8"
  encoding := .inplace
  size := 1
  base := none
  key := none
  value := none
  members := none

/-- A type whose values lie elsewhere. -/
def tableType : TypeEntry where
  id := "table"
  label := .text "mapping(uint256 => uint256)"
  encoding := .mapping
  size := 32
  base := none
  key := some (.text "word")
  value := some (.text "word")
  members := none

/-- A struct of three slots whose second member lies elsewhere. -/
def recordType : TypeEntry where
  id := "record"
  label := .text "struct Record"
  encoding := .inplace
  size := 96
  base := none
  key := none
  value := none
  members := some [
    { label := .text "low", type := .text "byte", slot := 0, offset := 0 },
    { label := .text "table", type := .text "table", slot := 1, offset := 0 },
    { label := .text "high", type := .text "word", slot := 2, offset := 0 }
  ]

/-- A member whose label is a list. -/
def oddMember : Variable where
  label := .list [.int 1]
  type := .text "word"
  slot := 0
  offset := 0

/-- A struct with a member whose label is a list. -/
def oddType : TypeEntry where
  id := "odd"
  label := .text "struct Odd"
  encoding := .inplace
  size := 32
  base := none
  key := none
  value := none
  members := some [oddMember]

/--
A contract with a struct at the last slot, an odd one and a label that is a
number.
-/
def structs : Contract where
  address := "0x00"
  layout := {
    stateVariables := [
      { label := .text "record", type := .text "record",
        slot := 2 ^ 256 - 1, offset := 0 },
      { label := .text "odd", type := .text "odd", slot := 0, offset := 0 },
      { label := .int 5, type := .text "record", slot := 0, offset := 0 }
    ]
    types := [wordType, byteType, tableType, recordType, oddType]
  }
  defaultBlock := .text "latest"

/-- The cursor on the struct at the last slot. -/
def recordCursor : Cursor where
  position := {
    slot := 2 ^ 256 - 1
    offset := 0
    type := .text "record"
    address := "0x00"
    block := .text "latest"
  }
  type := recordType
  path := .text "record"

/-- The cursor on the struct with the list. -/
def oddCursor : Cursor where
  position := {
    slot := 0
    offset := 0
    type := .text "odd"
    address := "0x00"
    block := .text "latest"
  }
  type := oddType
  path := .text "odd"

/-- The members of a struct at the last slot are read there and behind it. -/
theorem read_members_behind_last_slot :
    ∃ low high,
      recordCursor.step Keccak.digest structs.layout
        (.field (.text "low")) = .ok low ∧
        recordCursor.step Keccak.digest structs.layout
          (.field (.text "high")) = .ok high ∧
        (structs.read Keccak.digest Memory.slotNumbers.provider low ()).1 =
          .ok (.int 255) ∧
        (structs.read Keccak.digest Memory.slotNumbers.provider high ()).1 =
          .ok (.int 1) := by
  have onPosition :
      Cursor.ofPosition structs.layout recordCursor.position (.text "record") =
        .ok recordCursor :=
    rfl
  have serves :=
    Memory.serves_provider Memory.slotNumbers "0x00" (.text "latest")
  have isRead :
      (structs.read Keccak.digest Memory.slotNumbers.provider
        recordCursor ()).1 =
        .ok (.struct [(.text "low", .int 255), (.text "high", .int 1)]) :=
    Outcome.eq_ok_of_toOption (by decide +kernel)
  obtain ⟨entries, areEntries, _, members⟩ :=
    (read_struct_iff_read_members (by decide +kernel)
      (by decide +kernel) onPosition rfl rfl
      rfl (by decide +kernel) (by decide) (by decide +kernel) serves).1 _ isRead
  cases areEntries
  obtain ⟨low, toLow, readLow⟩ := members (.text "low") (.int 255) (by decide)
  obtain ⟨high, toHigh, readHigh⟩ := members (.text "high") (.int 1) (by decide)
  exact ⟨low, high, toLow, toHigh, readLow () serves, readHigh () serves⟩

/--
Without the conditions on labels and paths structs and their members differ.

A member whose label is a list is read, but not its struct.  A struct whose
variable has a number as its label is read, but not its members.
-/
theorem read_struct_without_members :
    structs.layout.Acyclic ∧
      structs.layout.ExactSizes ∧
      (structs.cursorOn (.text "odd") = .ok oddCursor ∧
        ∃ next,
          oddCursor.step Keccak.digest structs.layout
            (.field oddMember.label) = .ok next ∧
            (structs.read Keccak.digest Memory.slotNumbers.provider
              next ()).1.toOption =
              some (.int 0) ∧
            (structs.read Keccak.digest Memory.slotNumbers.provider
              oddCursor ()).1.toOption =
              none) ∧
      ∃ cursor,
        structs.cursorOn (.int 5) = .ok cursor ∧
          cursor.type = recordType ∧
          (structs.read Keccak.digest Memory.slotNumbers.provider
            cursor ()).1.toOption =
            some (.struct [(.text "low", .int 0), (.text "high", .int 2)]) ∧
          (cursor.step Keccak.digest structs.layout
            (.field (.text "low"))).toOption =
            none := by
  refine ⟨by decide +kernel, by decide +kernel, ⟨rfl, ?_⟩, ⟨_, rfl, rfl, ?_⟩⟩
  · refine ⟨oddCursor.memberAt oddMember wordType "odd", ?_, ?_⟩
    · exact Outcome.eq_ok_of_toOption (by decide +kernel)
    · exact ⟨by decide +kernel, by decide +kernel⟩
  · exact ⟨by decide +kernel, by decide +kernel⟩

end Contract

end EvmStorage
