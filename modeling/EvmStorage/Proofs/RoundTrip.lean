import EvmStorage.Proofs.InPlace
import EvmStorage.Proofs.ValueTree

namespace EvmStorage

/-!
# Written values are read back

Once the bytes of a value are written to their places, whatever was there
before and whatever is beside them, a cursor on the value reads the value.
-/

namespace ValueTree

variable {hash : Digest} {layout : Layout} {type : TypeEntry} {memory : Memory}

/-- A value that lies in its own slots is not one that lies elsewhere. -/
theorem storedElsewhere_eq
    (shaped : layout.Readable)
    (inTable : type ∈ layout.types)
    (tree : ValueTree layout type) :
    Decode.storedElsewhere layout type = .ok false := by
  cases tree with
  | scalar isScalar stored =>
      obtain ⟨isInPlace, noBase, _⟩ := TypeEntry.isScalar_iff.mp isScalar
      exact Decode.storedElsewhere_of_base_isNone isInPlace noBase
  | struct members memberType isInPlace hasMembers found parts =>
      rcases shaped.exclusive type inTable with noMembers | noBase
      · rw [hasMembers] at noMembers
        cases noMembers
      · exact Decode.storedElsewhere_of_base_isNone isInPlace noBase
  | array element length isFixedArray hasLength found inPlace parts =>
      rw [Decode.storedElsewhere_of_isFixedArray shaped.acyclic inTable
        isFixedArray,
        found]
      exact inPlace

/-- A value starts in its first slot. -/
theorem lt_of_fitsAt
    {offset : Int}
    (shaped : layout.Readable)
    (inTable : type ∈ layout.types)
    (fits : type.FitsAt offset) :
    0 ≤ offset ∧ offset < 32 := by
  obtain ⟨nonneg, inSlot⟩ := fits
  split at inSlot
  · next isScalar =>
      have positive := shaped.notEmpty type inTable isScalar
      omega
  · omega

/-- A scalar is decoded from the word that has its bytes. -/
private theorem value_of_holds_scalar
    {slot start : Int}
    (shaped : layout.Readable)
    (inTable : type ∈ layout.types)
    (isScalar : type.isScalar)
    (stored : ScalarValue type)
    (fits : type.FitsAt (start % 32))
    (holds : memory.Holds slot { start, content := stored.content }) :
    Decode.value hash layout
        (memory.words (slot + start / 32) (exactSpan type.size).toNat)
          (start % 32) type =
      .ok (stored.value hash) := by
  obtain ⟨positive, small⟩ := shaped.size_of_isScalar inTable isScalar
  have oneSlot : (exactSpan type.size).toNat = 1 := by
    simp only [exactSpan]
    omega
  have wholeContent : (stored.content.length : Int) = type.size := by
    rw [stored.length_content]
    exact Int.toNat_of_nonneg positive.le
  have notEmpty : stored.content ≠ [] := by
    intro isEmpty
    simp [isEmpty] at wholeContent
    omega
  have inSlot : start % 32 + type.size ≤ 32 := by
    simpa [TypeEntry.FitsAt, isScalar] using fits.2
  have window :=
    Memory.window_of_holds holds notEmpty (by simpa [wholeContent] using inSlot)
  simp only [wholeContent] at window
  rw [oneSlot, Memory.words_succ, Decode.value_of_isScalar isScalar, window,
    Outcome.ok_bind, stored.scalar_content isScalar positive small]

section Members

variable {members : List Variable} {member : Variable} {memberType : TypeEntry}

/-- The slots of a member lie within those of its struct. -/
private theorem member_inside
    (shaped : layout.Readable)
    (packed : layout.WellPacked type members)
    (isMember : member ∈ members)
    (found : layout.lookup member.type = .ok memberType) :
    member.slot + exactSpan memberType.size ≤ (exactSpan type.size).toNat := by
  obtain ⟨other, isOther, nonneg, fits⟩ := packed.fits member isMember
  cases found.symm.trans isOther
  have inside := packed.inside member isMember memberType found
  have whole := packed.whole
  have positive := packed.positive
  simp only [Variable.firstByte] at inside
  simp only [exactSpan]
  split at fits
  · next isScalar =>
      have size :=
        shaped.size_of_isScalar (Layout.mem_types_of_lookup found) isScalar
      omega
  · omega

/--
A member that is decoded from its own words is decoded from those of its
struct.
-/
private theorem isMemberValue_of_words
    {start : Int}
    {value : Value}
    (shaped : layout.Readable)
    (packed : layout.WellPacked type members)
    (isMember : member ∈ members)
    (isLabel : member.label.isLabel)
    (found : layout.lookup member.type = .ok memberType)
    (inPlace : Decode.storedElsewhere layout memberType = .ok false)
    (decoded :
      Decode.value hash layout
          (memory.words (start + member.slot) (exactSpan memberType.size).toNat)
          member.offset memberType =
        .ok value) :
    Decode.IsMemberValue hash layout
      (memory.words start (exactSpan type.size).toNat) member value := by
  have inTable := Layout.mem_types_of_lookup found
  have isInPlace := Decode.encoding_of_storedElsewhere inPlace
  have span := exactSpan_nonneg (shaped.size_nonneg inTable isInPlace)
  have own :
      between (memory.words start (exactSpan type.size).toNat) member.slot
          (member.slot + exactSpan memberType.size) =
        memory.words (start + member.slot) (exactSpan memberType.size).toNat :=
    memory.between_words (packed.nonneg member isMember) span
      (member_inside shaped packed isMember found)
  refine ⟨memberType, found, inPlace, ?_, ?_, isLabel⟩
  · rw [own, Memory.length_words]
    exact Int.self_le_toNat _
  · rw [own]
    exact decoded

/-- A struct is decoded if its members are. -/
private theorem value_of_members
    {start : Int}
    {values : Fin members.length → Value}
    (shaped : layout.Readable)
    (inTable : type ∈ layout.types)
    (isInPlace : type.encoding = .inplace)
    (hasMembers : type.members = some members)
    (areValues :
      ∀ place,
        Decode.IsMemberValue hash layout
          (memory.words start (exactSpan type.size).toNat)
          (members.get place) (values place))
    (offset : Int) :
    Decode.value hash layout
      (memory.words start (exactSpan type.size).toNat) offset type =
      .ok (.struct (List.ofFn fun place =>
        ((members.get place).label, values place))) := by
  have packed := shaped.structs type inTable isInPlace members hasMembers
  have isStruct : type.isStruct :=
    TypeEntry.isStruct_iff.mpr ⟨members, hasMembers⟩
  have inPlace :
      ∀ member ∈ members, ∀ memberType,
        layout.lookup member.type = .ok memberType →
        Decode.storedElsewhere layout memberType = .ok false := by
    intro member isMember memberType found
    obtain ⟨place, isPlace, rfl⟩ := List.getElem_of_mem isMember
    obtain ⟨other, isOther, inPlace, _⟩ := areValues ⟨place, isPlace⟩
    cases found.symm.trans isOther
    exact inPlace
  have notElsewhere : layout.ownMembers members = members := by
    apply List.filter_eq_self.mpr
    intro member isMember
    obtain ⟨memberType, found, _⟩ := packed.fits member isMember
    have elsewhere_iff := Layout.liesElsewhere_iff found
    rw [inPlace member isMember memberType found] at elsewhere_iff
    simpa using elsewhere_iff
  have sized : ∀ member ∈ members, layout.HasExactSize member.type := by
    intro member isMember memberType found
    have inTable := Layout.mem_types_of_lookup found
    have encoding :=
      Decode.encoding_of_storedElsewhere
        (inPlace member isMember memberType found)
    exact ⟨shaped.size_nonneg inTable encoding,
      shaped.bounded memberType inTable⟩
  have areKeys : ∀ member ∈ members, member.label.isKey := by
    simpa [hasMembers] using shaped.areKeys type inTable isInPlace
  have areMembers :
      List.Forall₂
        (Decode.IsMemberValue hash layout
          (memory.words start (exactSpan type.size).toNat))
        members (List.ofFn values) := by
    apply List.forall₂_iff_get.mpr
    refine ⟨by simp, fun place isPlace _ => ?_⟩
    simpa using areValues ⟨place, isPlace⟩
  rw [Decode.value_of_isStruct shaped.acyclic inTable isStruct,
    Outcome.map_eq_ok_iff]
  refine ⟨_, (Decode.struct_eq_ok_iff hasMembers sized ?_).mpr
    ⟨List.ofFn values, ?_, rfl⟩, ?_⟩
  · rw [notElsewhere]
    exact packed.distinct.keys areKeys
  · rw [notElsewhere]
    exact areMembers
  · rw [notElsewhere]
    congr 1
    apply List.ext_getElem
    · simp
    · intro place _ _
      simp

end Members

section Elements

variable {element : TypeEntry} {length : Nat}

/-- An array is decoded if its elements are. -/
private theorem value_of_elements
    {start : Int}
    {values : Fin length → Value}
    (shaped : layout.Readable)
    (inTable : type ∈ layout.types)
    (isFixedArray : type.isFixedArray)
    (hasLength : type.HasLength length)
    (found : layout.elementOf type = .ok element)
    (inPlace : Decode.storedElsewhere layout element = .ok false)
    (areValues :
      ∀ index : Fin length,
        Decode.value hash layout
            (memory.words (start + (exactPlace index.val element.size).slot)
              (exactSpan element.size).toNat)
            (exactPlace index.val element.size).offset element =
          .ok (values index))
    (offset : Int) :
    Decode.value hash layout
      (memory.words start (exactSpan type.size).toNat) offset type =
      .ok (.list (List.ofFn values)) := by
  have elementInTable := Layout.mem_types_of_lookup found
  have nonneg :=
    shaped.size_nonneg elementInTable
      (Decode.encoding_of_storedElsewhere inPlace)
  have bounded := shaped.bounded element elementInTable
  obtain ⟨isSize, sized⟩ :=
    shaped.size_of_isFixedArray inTable isFixedArray found hasLength
  have noMembers := shaped.isStruct_of_isFixedArray inTable isFixedArray
  have isArray : type.isArray := by
    simp [TypeEntry.isArray, isFixedArray]
  have isLength :
      (none : Option Int).elim type.fixedLength .ok = .ok (length : Int) :=
    shaped.fixedLength_eq inTable isFixedArray found hasLength
  have slots : exactSpan type.size = exactArraySpan length element.size := by
    simp only [exactSpan]
    omega
  rw [Decode.value_of_isFixedArray shaped.acyclic inTable noMembers
    isFixedArray, Outcome.map_eq_ok_iff]
  refine ⟨_, (Decode.sequence_eq_ok_iff isArray found inPlace nonneg
    (by omega) bounded isLength).mpr ⟨?_, by simp, ?_⟩, rfl⟩
  · rw [Memory.length_words, slots]
    exact Int.self_le_toNat _
  · intro index inside
    rw [List.length_ofFn] at inside
    have positive := sized (by omega)
    rw [memory.between_words
      (exactPlace_slot_nonneg (Int.natCast_nonneg index) positive)
      (exactSpan_nonneg nonneg),
      List.getElem_ofFn]
    · exact areValues ⟨index, inside⟩
    · rw [slots]
      calc
        (exactPlace index element.size).slot + exactSpan element.size
            ≤ exactArraySpan length element.size :=
          exactPlace_slot_add_le positive (Int.natCast_nonneg index)
            (Int.ofNat_lt.mpr inside)
        _ ≤ _ := Int.self_le_toNat _

end Elements

/-- What is put behind a whole number of slots keeps its offset. -/
private theorem place_of_whole
    {start slot offset : Int}
    (whole : start % 32 = 0)
    (inSlot : 0 ≤ offset ∧ offset < 32) :
    (start + (32 * slot + offset)) / 32 = start / 32 + slot ∧
      (start + (32 * slot + offset)) % 32 = offset := by
  omega

/-- A value is decoded from words that have the bytes of all its scalars. -/
theorem value_of_holds
    (shaped : layout.Readable)
    (inTable : type ∈ layout.types)
    (tree : ValueTree layout type)
    {slot start : Int}
    (fits : type.FitsAt (start % 32))
    (holds : ∀ leaf ∈ tree.leaves start, memory.Holds slot leaf) :
    Decode.value hash layout
        (memory.words (slot + start / 32) (exactSpan type.size).toNat)
          (start % 32) type =
      .ok (tree.value hash) := by
  induction tree generalizing start with
  | scalar isScalar stored =>
      exact value_of_holds_scalar shaped inTable isScalar stored fits
        (holds _ (List.mem_singleton_self _))
  | @struct type members memberType isInPlace hasMembers found parts
    inductionHypothesis =>
      have packed := shaped.structs type inTable isInPlace members hasMembers
      apply value_of_members shaped inTable isInPlace hasMembers
      intro place
      have isMember : members[place] ∈ members :=
        List.getElem_mem _
      have memberInTable := Layout.mem_types_of_lookup (found place)
      have areKeys : ∀ member ∈ members, member.label.isKey := by
        simpa [hasMembers] using shaped.areKeys type inTable isInPlace
      apply isMemberValue_of_words shaped packed isMember
        (Value.isLabel_of_isKey (areKeys _ isMember)) (found place)
        ((parts place).storedElsewhere_eq shaped memberInTable)
      obtain ⟨other, isOther, memberFits⟩ := packed.fits _ isMember
      cases (found place).symm.trans isOther
      have inSlot := lt_of_fitsAt shaped memberInTable memberFits
      have isStruct : type.isStruct :=
        TypeEntry.isStruct_iff.mpr ⟨members, hasMembers⟩
      have whole : start % 32 = 0 := by
        simpa [TypeEntry.isScalar_of_isStruct isStruct] using fits.2
      obtain ⟨slotOf, offsetOf⟩ :
          (start + members[place].firstByte) / 32 =
            start / 32 + members[place].slot ∧
            (start + members[place].firstByte) % 32 = members[place].offset :=
        place_of_whole whole inSlot
      have decoded :=
        inductionHypothesis place memberInTable
          (by rwa [offsetOf]) fun leaf isLeaf =>
          holds leaf (List.mem_flatMap.mpr ⟨place,
            List.mem_finRange place, isLeaf⟩)
      rwa [slotOf, offsetOf, ← Int.add_assoc] at decoded
  | @array type element length isFixedArray hasLength found inPlace parts
    inductionHypothesis =>
      apply value_of_elements shaped inTable isFixedArray hasLength
        found inPlace
      intro index
      have elementInTable := Layout.mem_types_of_lookup found
      have positive :=
        (shaped.size_of_isFixedArray inTable isFixedArray found hasLength).2
          (Fin.pos index)
      have elementFits :=
        @TypeEntry.fitsAt_exactPlace element index.val positive
          (shaped.scalars element elementInTable)
          fun notScalar =>
            (shaped.dvd_size elementInTable
              (Decode.encoding_of_storedElsewhere inPlace)
              (by simpa using notScalar)).2
      have inSlot := lt_of_fitsAt shaped elementInTable elementFits
      have whole : start % 32 = 0 := by
        simpa [TypeEntry.isScalar_of_isFixedArray isFixedArray] using fits.2
      obtain ⟨slotOf, offsetOf⟩ :
          (start + (exactPlace index.val element.size).firstByte) / 32 =
              start / 32 + (exactPlace index.val element.size).slot ∧
            (start + (exactPlace index.val element.size).firstByte) % 32 =
              (exactPlace index.val element.size).offset :=
        place_of_whole whole inSlot
      have decoded :=
        inductionHypothesis index elementInTable
          (by rwa [offsetOf]) fun leaf isLeaf =>
          holds leaf (List.mem_flatMap.mpr ⟨index,
            List.mem_finRange index, isLeaf⟩)
      rwa [slotOf, offsetOf, ← Int.add_assoc] at decoded

end ValueTree

namespace Contract

variable {hash : Digest} {contract : Contract} {cursor : Cursor}
  {position : Position} {provider : Provider σ} {state : σ}

/--
A value that was written is read back.

The bytes of its scalars are written at the position of a cursor, over any
memory, and the cursor is read from a provider that serves the result, at a
block that can be shown.
-/
theorem read_written
    {path : Value}
    (shaped : contract.layout.Readable)
    (onPosition : Cursor.ofPosition contract.layout position path = .ok cursor)
    (inside : inSlotSpace position.slot)
    (fits : cursor.type.FitsAt position.offset)
    (tree : ValueTree contract.layout cursor.type)
    (background : Memory)
    (canShow : position.block.canShow)
    (serves :
      provider.Serves position.address position.block
        (background.writeAll position.slot (tree.leaves position.offset))
          state) :
    (contract.read hash provider cursor state).1 = .ok (tree.value hash) := by
  simp only [Cursor.ofPosition, Outcome.bind_eq_ok_iff] at onPosition
  obtain ⟨type, onType, isCursor⟩ := onPosition
  cases isCursor
  have inTable := Layout.mem_types_of_lookup onType
  have bounded := shaped.bounded type inTable
  obtain ⟨nonneg, inSlot⟩ := ValueTree.lt_of_fitsAt shaped inTable fits
  have inRange :
      ∀ leaf ∈ tree.leaves position.offset, ∀ address, leaf.Covers address →
        Memory.InRange address := by
    intro leaf isLeaf address covers
    obtain ⟨above, below⟩ := tree.within_of_covers shaped inTable isLeaf covers
    simp only [greatestExactSize] at bounded
    simp only [Memory.InRange, slotModulus_eq]
    omega
  have holds :
      ∀ leaf ∈ tree.leaves position.offset,
        (background.writeAll position.slot (tree.leaves position.offset)).Holds
          position.slot leaf :=
    Memory.holds_writeAll
      (tree.leaves_apart shaped inTable position.offset) inRange
  have sameSlot : position.offset / 32 = 0 := by
    omega
  have sameOffset : position.offset % 32 = position.offset := by
    omega
  have decoded :=
    @ValueTree.value_of_holds hash _ _ _ shaped inTable tree _ _
      (by rwa [sameOffset]) holds
  rw [sameSlot, sameOffset, Int.add_zero] at decoded
  rw [read_of_inPlace shaped.acyclic inTable
    (tree.storedElsewhere_eq shaped inTable)
    (shaped.size_nonneg inTable tree.encoding) bounded
    (fun isScalar => ⟨shaped.notEmpty type inTable isScalar, inside⟩)
    serves canShow]
  exact decoded

/-- A flag. -/
def openType : TypeEntry where
  id := "open"
  label := .text "bool"
  encoding := .inplace
  size := 1
  base := none
  key := none
  value := none
  members := none

/-- An integer of two bytes. -/
def deltaType : TypeEntry where
  id := "delta"
  label := .text "int16"
  encoding := .inplace
  size := 2
  base := none
  key := none
  value := none
  members := none

/-- Three integers in one slot. -/
def deltasType : TypeEntry where
  id := "deltas"
  label := .text "int16[3]"
  encoding := .inplace
  size := 32
  base := some (.text "delta")
  key := none
  value := none
  members := none

/-- The members of a struct of two slots. -/
def tradeMembers : List Variable :=
  [
    { label := .text "last", type := .text "delta", slot := 0, offset := 1 },
    { label := .text "open", type := .text "open", slot := 0, offset := 0 },
    { label := .text "deltas", type := .text "deltas", slot := 1, offset := 0 }
  ]

/-- A struct of two slots. -/
def tradeType : TypeEntry where
  id := "trade"
  label := .text "struct Trade"
  encoding := .inplace
  size := 64
  base := none
  key := none
  value := none
  members := some tradeMembers

/-- A contract with a struct at the last slot. -/
def trades : Contract where
  address := "0x00"
  layout := {
    stateVariables := [
      { label := .text "trade", type := .text "trade",
        slot := 2 ^ 256 - 1, offset := 0 }
    ]
    types := [openType, deltaType, deltasType, tradeType]
  }
  defaultBlock := .text "latest"

/-- The values of the layout are laid out as compilers do it. -/
theorem readable_trades : trades.layout.Readable where
  acyclic := by decide +kernel
  exclusive := by decide +kernel
  bounded := by decide +kernel
  scalars := by decide +kernel
  structs := by decide +kernel
  arrays := by
    intro type inTable isFixedArray
    have isDeltas : type = deltasType := by
      revert type
      decide +kernel
    subst isDeltas
    exact ⟨deltaType, 3, 1, rfl, ⟨"int16", by decide +kernel⟩,
      Outcome.eq_ok_of_toOption (by decide +kernel), rfl⟩
  notEmpty := by decide +kernel
  areKeys := by decide +kernel

/-- An integer of two bytes as a value of the layout. -/
def delta
    (n : Int)
    (above : -(2 ^ 15) ≤ n)
    (below : n < 2 ^ 15) :
    ValueTree trades.layout deltaType :=
  .scalar rfl (.signed (by decide +kernel) n above below)

/-- The types of the members of the struct. -/
def tradeTypes : Fin 3 → TypeEntry
  | 0 => deltaType
  | 1 => openType
  | 2 => deltasType

theorem lookup_tradeMembers :
    ∀ place : Fin 3,
      trades.layout.lookup (tradeMembers.get place).type =
        .ok (tradeTypes place)
  | 0 => rfl
  | 1 => rfl
  | 2 => rfl

/-- The three integers of the array. -/
def deltas : Fin 3 → ValueTree trades.layout deltaType
  | 0 => delta 1 (by decide) (by decide)
  | 1 => delta (-1) (by decide) (by decide)
  | 2 => delta 300 (by decide) (by decide)

/-- The values of the members of the struct. -/
def tradeParts : (place : Fin 3) → ValueTree trades.layout (tradeTypes place)
  | 0 => delta (-7) (by decide) (by decide)
  | 1 => .scalar rfl (.flag rfl rfl true)
  | 2 => .array deltaType 3 rfl ⟨"int16", by decide +kernel⟩ rfl rfl deltas

/-- A value of the struct. -/
def trade : ValueTree trades.layout tradeType :=
  .struct tradeMembers tradeTypes rfl rfl lookup_tradeMembers tradeParts

/-- The cursor on the struct at the last slot. -/
def tradeCursor : Cursor where
  position := {
    slot := 2 ^ 256 - 1
    offset := 0
    type := .text "trade"
    address := "0x00"
    block := .text "latest"
  }
  type := tradeType
  path := .text "trade"

/-- A struct that is written at the last slot is read there and behind it. -/
theorem read_written_trade :
    (trades.read Keccak.digest
        (Memory.slotNumbers.writeAll (2 ^ 256 - 1) (trade.leaves 0)).provider
        tradeCursor ()).1 =
      .ok (.struct [
        (.text "last", .int (-7)),
        (.text "open", .bool true),
        (.text "deltas", .list [.int 1, .int (-1), .int 300])
      ]) := by
  have onPosition :
      Cursor.ofPosition trades.layout tradeCursor.position (.text "trade") =
        .ok tradeCursor :=
    rfl
  have serves :=
    Memory.serves_provider
      (Memory.slotNumbers.writeAll (2 ^ 256 - 1) (trade.leaves 0))
      "0x00" (.text "latest")
  exact read_written readable_trades onPosition (by decide +kernel)
    (by decide +kernel) trade Memory.slotNumbers rfl serves

/-- An enumeration of no bytes. -/
def unitType : TypeEntry where
  id := "unit"
  label := .text "enum Unit"
  encoding := .inplace
  size := 0
  base := none
  key := none
  value := none
  members := none

/-- The members of a struct whose only label is a list. -/
def boxMembers : List Variable :=
  [{ label := .list [.int 1], type := .text "open", slot := 0, offset := 0 }]

/-- A struct whose only label is a list. -/
def boxType : TypeEntry where
  id := "box"
  label := .text "struct Box"
  encoding := .inplace
  size := 32
  base := none
  key := none
  value := none
  members := some boxMembers

/--
A contract with an enumeration of no bytes, and with a label that is a list.
-/
def oddities : Contract where
  address := "0x00"
  layout := {
    stateVariables := [
      { label := .text "unit", type := .text "unit", slot := 0, offset := 0 },
      { label := .text "box", type := .text "box", slot := 1, offset := 0 }
    ]
    types := [openType, unitType, boxType]
  }
  defaultBlock := .text "latest"

/-- The only value of an enumeration of no bytes. -/
def unit : ValueTree oddities.layout unitType :=
  .scalar rfl (.choice "Unit" (by decide +kernel) 0 (by decide))

theorem lookup_boxMembers :
    ∀ place : Fin 1,
      oddities.layout.lookup (boxMembers.get place).type = .ok openType
  | 0 => rfl

/-- A value of the struct whose label is a list. -/
def box : ValueTree oddities.layout boxType :=
  .struct boxMembers (fun _ => openType) rfl rfl lookup_boxMembers
    fun _ => .scalar rfl (.flag rfl rfl true)

/--
Scalars of no bytes and members that have a list as their label are not read
back.

Apart from these the layout has the shape that is asked for.
-/
theorem read_written_oddities :
    oddities.layout.InPlaceShaped ∧
      (∃ cursor,
        oddities.cursorOn (.text "unit") = .ok cursor ∧
          cursor.type = unitType ∧
          cursor.position.slot = 0 ∧
          (oddities.read Keccak.digest
            (Memory.slotNumbers.writeAll 0 (unit.leaves 0)).provider
              cursor ()).1.toOption =
            none) ∧
      ∃ cursor,
        oddities.cursorOn (.text "box") = .ok cursor ∧
          cursor.type = boxType ∧
          cursor.position.slot = 1 ∧
          (oddities.read Keccak.digest
            (Memory.slotNumbers.writeAll 1 (box.leaves 0)).provider
              cursor ()).1.toOption =
            none := by
  have noArrays :
      ∀ type ∈ oddities.layout.types, type.isFixedArray = false := by
    decide +kernel
  refine ⟨?_, ⟨_, rfl, rfl, rfl, ?_⟩, ⟨_, rfl, rfl, rfl, ?_⟩⟩
  · exact
      { acyclic := by decide +kernel
        exclusive := by decide +kernel
        bounded := by decide +kernel
        scalars := by decide +kernel
        structs := by decide +kernel
        arrays := by
          intro type inTable isFixedArray
          rw [noArrays type inTable] at isFixedArray
          cases isFixedArray }
  · decide +kernel
  · decide +kernel

end Contract

end EvmStorage
