import EvmStorage.Proofs.ArrayLength
import EvmStorage.Proofs.ByteString
import EvmStorage.Proofs.Decimal
import EvmStorage.Proofs.InPlace
import EvmStorage.Proofs.Parts

namespace EvmStorage

/-!
# Arrays and their elements

A whole array is decoded from one block of words, and its elements are found
by arithmetic on slots and read one by one.  Both ways lead to the same values,
for packed elements as well as for those that take several slots, and also
where an array goes on behind the last slot at the first one.
-/

/-- Whether all sizes of a layout are positive and are not rounded. -/
def Layout.ExactSizes (layout : Layout) : Prop :=
  ∀ type ∈ layout.types, 0 < type.size ∧ type.size ≤ greatestExactSize

instance (layout : Layout) : Decidable layout.ExactSizes :=
  inferInstanceAs
    (Decidable (∀ type ∈ layout.types,
      0 < type.size ∧ type.size ≤ greatestExactSize))

theorem Layout.ExactSizes.hasExactSize
    {layout : Layout}
    (sizes : layout.ExactSizes)
    (id : Value) :
    layout.HasExactSize id := by
  intro type found
  obtain ⟨positive, bounded⟩ := sizes type (Layout.mem_types_of_lookup found)
  exact ⟨positive.le, bounded⟩

namespace Cursor

variable {hash : Digest} {layout : Layout} {cursor : Cursor}

/-- The length of an array: that in its label, or in its slot in a memory. -/
def arrayLength
    (memory : Memory)
    (cursor : Cursor) :
    Except Fault Int :=
  if cursor.type.isDynamicArray then
    .ok (Bytes.toNat (memory.word cursor.position.slot))
  else
    cursor.type.fixedLength

/-- The cursor on an element of an array whose elements start at a slot. -/
def elementAt
    (cursor : Cursor)
    (element : TypeEntry)
    (start index : Int)
    (path : String) :
    Cursor where
  position := {
    cursor.position with
    slot := (start + (exactPlace index element.size).slot) % slotModulus
    offset := (exactPlace index element.size).offset
    type := cursor.type.base.getD .null
  }
  type := element
  path := .text (path ++ stepText (.index (.int index)))

/-- A step to an element leads to its place if the array may have the index. -/
theorem step_index_eq_ok_iff
    {element : TypeEntry}
    {index : Int}
    {path : String}
    {next : Cursor}
    (onType : layout.lookup cursor.position.type = .ok cursor.type)
    (isText : cursor.path = .text path)
    (isArray : cursor.type.isArray)
    (found : layout.elementOf cursor.type = .ok element)
    (positive : 0 < element.size)
    (bounded : element.size ≤ greatestExactSize)
    (nonneg : 0 ≤ index) :
    cursor.step hash layout (.index (.int index)) = .ok next ↔
      Value.canWriteInt index ∧
        ∃ start,
          cursor.position.elementsStart hash cursor.type index = .ok start ∧
            cursor.elementAt element start index path = next := by
  have hasSize :
      layout.sizeOf (cursor.type.base.getD .null) = .ok element.size := by
    simp only [Layout.elementOf] at found
    simp [Layout.sizeOf, found]
  have isIndex : Position.readIndex (.int index) = .ok index := by
    simp [Position.readIndex, Except.bind, not_lt_of_ge nonneg]
  have toElement :
      cursor.position.step hash layout (.index (.int index)) =
        (cursor.position.elementsStart hash cursor.type index >>= fun start =>
          .ok (cursor.elementAt element start index path).position) := by
    simp only [Position.step, onType, Outcome.ok_bind, Position.stepWithin,
      isArray, ↓reduceIte, Position.element, isIndex, hasSize,
      elementPlace_eq nonneg positive bounded, Outcome.pure_eq_ok]
    rfl
  have onElement (start : Int) :
      Cursor.ofPosition layout
        (cursor.elementAt element start index path).position
          (.text (path ++ stepText (.index (.int index)))) =
        .ok (cursor.elementAt element start index path) := by
    simp only [Layout.elementOf] at found
    simp [Cursor.ofPosition, elementAt, found]
  by_cases canShow : Value.canWriteInt index
  · have shown : canShowStep (.index (.int index)) = true := by
      simpa [canShowStep, Value.canShow] using canShow
    simp only [step, shown, ↓reduceIte, toElement, isText, extendPath, canShow,
      true_and, Outcome.bind_eq_ok_iff, Outcome.ok_bind]
    constructor
    · rintro ⟨_, ⟨start, starts, isPosition⟩, reached⟩
      cases isPosition
      rw [onElement] at reached
      cases reached
      exact ⟨start, starts, rfl⟩
    · rintro ⟨start, starts, rfl⟩
      exact ⟨_, ⟨start, starts, rfl⟩, onElement start⟩
  · have notShown : canShowStep (.index (.int index)) = false := by
      simpa [canShowStep, Value.canShow] using canShow
    simp [step, notShown, canShow]

end Cursor

/-- Integers of up to 256 bits can be written in decimal. -/
theorem Value.canWriteInt_of_le
    {n : Int}
    (nonneg : 0 ≤ n)
    (bounded : n ≤ 2 ^ 256) :
    canWriteInt n = true := by
  have small : 2 ^ 256 < writableBound :=
    calc
      2 ^ 256 ≤ 10 ^ 256 := Nat.pow_le_pow_left (by decide) 256
      _ < 10 ^ Numeral.maxDecimalDigits :=
        Nat.pow_lt_pow_right (by decide) (by decide)
      _ = writableBound := writableBound_eq.symm
  have magnitude : n.natAbs ≤ 2 ^ 256 := by
    omega
  simp only [canWriteInt, decide_eq_true_eq]
  exact lt_of_le_of_lt magnitude small

namespace Contract

variable {hash : Digest} {contract : Contract} {cursor : Cursor}
  {memory : Memory} {provider : Provider σ} {state : σ} {element : TypeEntry}

/-- A cursor on an element reads the words at the place of the element. -/
theorem read_elementAt
    (acyclic : contract.layout.Acyclic)
    (found : contract.layout.elementOf cursor.type = .ok element)
    (inPlace : Decode.storedElsewhere contract.layout element = .ok false)
    (positive : 0 < element.size)
    (bounded : element.size ≤ greatestExactSize)
    (serves :
      provider.Serves cursor.position.address cursor.position.block
        memory state)
    (canShow : cursor.position.block.canShow)
    (start index : Int)
    (path : String) :
    (contract.read hash provider
      (cursor.elementAt element start index path) state).1 =
      Decode.value hash contract.layout
        (memory.words (start + (exactPlace index element.size).slot)
          (exactSpan element.size).toNat)
        (exactPlace index element.size).offset element := by
  have inTable : element ∈ contract.layout.types :=
    Layout.mem_types_of_lookup found
  have servesElement :
      provider.Serves
        (cursor.elementAt element start index path).position.address
        (cursor.elementAt element start index path).position.block
          memory state :=
    serves
  calc
    (contract.read hash provider
      (cursor.elementAt element start index path) state).1
        = Decode.value hash contract.layout
            (memory.words
              ((start + (exactPlace index element.size).slot) % slotModulus)
              (exactSpan element.size).toNat)
            (exactPlace index element.size).offset element :=
      read_of_inPlace acyclic inTable inPlace positive.le bounded
        (fun _ => ⟨positive, inSlotSpace_emod _⟩) servesElement canShow
    _ = _ := by rw [Memory.words_emod]

/-- The length that is stored in the slot of a dynamic array. -/
theorem storedLength_le (memory : Memory) (slot : Int) :
    (Bytes.toNat (memory.word slot) : Int) ≤ 2 ^ 256 := by
  have below := Bytes.toNat_lt (memory.word slot)
  rw [memory.length_word] at below
  norm_num [slotSize] at below
  omega

variable (hash) in
/--
A cursor on a dynamic array returns what is decoded from the words of its
elements.
-/
theorem read_of_isDynamicArray
    (isDynamicArray : cursor.type.isDynamicArray)
    (notStruct : cursor.type.isStruct = false)
    (found : contract.layout.elementOf cursor.type = .ok element)
    (inPlace : Decode.storedElsewhere contract.layout element = .ok false)
    (positive : 0 < element.size)
    (bounded : element.size ≤ greatestExactSize)
    (inside : inSlotSpace cursor.position.slot)
    (serves :
      provider.Serves cursor.position.address cursor.position.block
        memory state)
    (canShow : cursor.position.block.canShow) :
    let length : Int := Bytes.toNat (memory.word cursor.position.slot)
    (contract.read hash provider cursor state).1 =
      (Decode.sequence hash contract.layout
        (memory.words (hash (Word.ofNat cursor.position.slot.toNat))
          (exactArraySpan length element.size).toNat)
        cursor.type (some length)).map .list := by
  intro length
  have elementHere := Decode.elementInPlace_eq found inPlace
  have start : dataSlot hash cursor.position.slot =
      .ok (hash (Word.ofNat cursor.position.slot.toNat) : Int) := by
    simp [dataSlot, inside]
  simp only [read,
    Cursor.resolve_of_isDynamicArray isDynamicArray notStruct elementHere,
    Cursor.readDynamicArray, Reading.slot_bind]
  obtain ⟨later, servesLater, goesOn⟩ := serves.run_word canShow inside _
  rw [goesOn]
  simp only [found, arraySpan_eq (fun _ => positive) bounded, start,
    Reading.done_ok_bind, servesLater.run_slots canShow, length]

/-- A dynamic array that is read lies at a slot that exists. -/
theorem inSlotSpace_of_read_isDynamicArray
    (isDynamicArray : cursor.type.isDynamicArray)
    (notStruct : cursor.type.isStruct = false)
    (found : contract.layout.elementOf cursor.type = .ok element)
    (inPlace : Decode.storedElsewhere contract.layout element = .ok false)
    (positive : 0 < element.size)
    (bounded : element.size ≤ greatestExactSize)
    {value : Value}
    (isRead : (contract.read hash provider cursor state).1 = .ok value) :
    inSlotSpace cursor.position.slot := by
  by_contra outside
  have elementHere := Decode.elementInPlace_eq found inPlace
  have noStart : dataSlot hash cursor.position.slot =
      .error (.misuse (.slotOutsideSpace cursor.position.slot)) := by
    simp [dataSlot, outside]
  simp only [read,
    Cursor.resolve_of_isDynamicArray isDynamicArray notStruct elementHere,
    Cursor.readDynamicArray, Reading.slot_bind, found,
    arraySpan_eq (fun _ => positive) bounded, noStart, Reading.done_ok_bind,
    Reading.done_error_bind, Provider.run] at isRead
  split at isRead
  · cases isRead
  · cases isRead

/-- An array whose elements lie one behind the other from a slot on. -/
structure ArrayBlock
    (hash : Digest)
    (layout : Layout)
    (cursor : Cursor)
    (path : String)
    (element : TypeEntry)
    (start length : Int) :
    Prop where
  onType : layout.lookup cursor.position.type = .ok cursor.type
  isText : cursor.path = .text path
  isArray : cursor.type.isArray
  found : layout.elementOf cursor.type = .ok element
  inPlace : Decode.storedElsewhere layout element = .ok false
  positive : 0 < element.size
  bounded : element.size ≤ greatestExactSize
  starts :
    ∀ index : Int,
      0 ≤ index →
      index < length →
      cursor.position.elementsStart hash cursor.type index = .ok start

namespace ArrayBlock

variable {path : String} {start length : Int} {count : Nat} {given : Option Int}

/-- An index below the length leads to an element. -/
theorem step
    (block : ArrayBlock hash contract.layout cursor path element start length)
    {index : Nat}
    (inside : (index : Int) < length)
    (short : length ≤ 2 ^ 256) :
    cursor.step hash contract.layout (.index (.int index)) =
      .ok (cursor.elementAt element start index path) := by
  have nonneg : (0 : Int) ≤ index :=
    Int.natCast_nonneg index
  rw [Cursor.step_index_eq_ok_iff block.onType block.isText block.isArray
    block.found block.positive block.bounded nonneg]
  exact ⟨Value.canWriteInt_of_le nonneg (by omega), start,
    block.starts index nonneg inside, rfl⟩

/-- The words at the place of an element are those that a cursor on it reads. -/
theorem value_eq_read
    (block : ArrayBlock hash contract.layout cursor path element start length)
    (acyclic : contract.layout.Acyclic)
    (serves :
      provider.Serves cursor.position.address cursor.position.block
        memory state)
    (canShow : cursor.position.block.canShow)
    (enough : exactArraySpan length element.size ≤ count)
    {index : Nat}
    (inside : (index : Int) < length) :
    Decode.value hash contract.layout
        (between (memory.words start count) (exactPlace index element.size).slot
          ((exactPlace index element.size).slot + exactSpan element.size))
        (exactPlace index element.size).offset element =
      (contract.read hash provider
        (cursor.elementAt element start index path) state).1 := by
  have nonneg : (0 : Int) ≤ index :=
    Int.natCast_nonneg index
  have slotNonneg := exactPlace_slot_nonneg nonneg block.positive
  have ends := exactPlace_slot_add_le block.positive nonneg inside
  rw [read_elementAt acyclic block.found block.inPlace block.positive
    block.bounded serves canShow,
    memory.between_words slotNonneg (exactSpan_nonneg block.positive.le)
      (ends.trans enough)]

/--
The block is decoded if its words are enough, to the values at the places of
its elements.
-/
theorem sequence_eq_ok_iff
    (block : ArrayBlock hash contract.layout cursor path element start length)
    (isLength : given.elim cursor.type.fixedLength .ok = .ok length)
    {items : List Value} :
    Decode.sequence hash contract.layout
      (memory.words start count) cursor.type given =
        .ok items ↔
      exactArraySpan length element.size ≤ count ∧
        items.length = length.toNat ∧
        ∀ index (inside : index < items.length),
          Decode.value hash contract.layout
              (between (memory.words start count)
                (exactPlace index element.size).slot
                ((exactPlace index element.size).slot + exactSpan element.size))
              (exactPlace index element.size).offset element =
            .ok items[index] := by
  rw [Decode.sequence_eq_ok_iff block.isArray block.found block.inPlace
    block.positive.le (fun _ => block.positive) block.bounded isLength,
    Memory.length_words]

/-- If the block is decoded, its items are what its elements are read as. -/
theorem read_element_of_sequence
    (block : ArrayBlock hash contract.layout cursor path element start length)
    (acyclic : contract.layout.Acyclic)
    (canShow : cursor.position.block.canShow)
    (isLength : given.elim cursor.type.fixedLength .ok = .ok length)
    (short : exactArraySpan length element.size ≤ count → length ≤ 2 ^ 256)
    {items : List Value}
    (decoded :
      Decode.sequence hash contract.layout
        (memory.words start count) cursor.type given =
        .ok items) :
    items.length = length.toNat ∧
      ∀ index (inside : index < items.length),
        ∃ next,
          cursor.step hash contract.layout (.index (.int index)) = .ok next ∧
            ∀ later,
              provider.Serves cursor.position.address cursor.position.block
                memory later →
              (contract.read hash provider next later).1 =
                .ok items[index] := by
  rw [block.sequence_eq_ok_iff isLength] at decoded
  obtain ⟨enough, sameLength, elements⟩ := decoded
  refine ⟨sameLength, fun index inside => ?_⟩
  have inArray : (index : Int) < length := by
    omega
  refine ⟨_, block.step inArray (short enough), fun later servesLater => ?_⟩
  rw [← block.value_eq_read acyclic servesLater canShow enough inArray]
  exact elements index inside

/-- If every element is read and the words are enough, the block is decoded. -/
theorem sequence_of_read_element
    (block : ArrayBlock hash contract.layout cursor path element start length)
    (acyclic : contract.layout.Acyclic)
    (canShow : cursor.position.block.canShow)
    (isLength : given.elim cursor.type.fixedLength .ok = .ok length)
    (short : length ≤ 2 ^ 256)
    (enough : exactArraySpan length element.size ≤ count)
    (elements :
      ∀ index : Nat,
        (index : Int) < length →
        ∃ next value later,
          provider.Serves cursor.position.address cursor.position.block
            memory later ∧
            cursor.step hash contract.layout (.index (.int index)) = .ok next ∧
            (contract.read hash provider next later).1 = .ok value) :
    ∃ items,
      Decode.sequence hash contract.layout
        (memory.words start count) cursor.type given =
        .ok items := by
  have decodedElement :
      ∀ index < length.toNat,
        ∃ value,
          Decode.value hash contract.layout
              (between (memory.words start count)
                (exactPlace index element.size).slot
                ((exactPlace index element.size).slot + exactSpan element.size))
              (exactPlace index element.size).offset element =
            .ok value := by
    intro index inside
    have inArray : (index : Int) < length := by
      omega
    obtain ⟨next, value, later, servesLater, reached, read⟩ :=
      elements index inArray
    rw [block.step inArray short] at reached
    cases reached
    exact ⟨value, by
      rw [block.value_eq_read acyclic servesLater canShow enough inArray, read]⟩
  obtain ⟨items, areItems⟩ := Outcome.exists_mapM_range_eq_ok decodedElement
  obtain ⟨sameLength, itemAt⟩ := Outcome.mapM_range_eq_ok_iff.mp areItems
  refine ⟨items, ?_⟩
  rw [block.sequence_eq_ok_iff isLength]
  exact ⟨enough, sameLength, itemAt⟩

end ArrayBlock

/-- A decoded array has a length. -/
theorem exists_length_of_sequence
    {words : List Bytes}
    {given : Option Int}
    {items : List Value}
    (isArray : cursor.type.isArray)
    (decoded :
      Decode.sequence hash contract.layout words cursor.type given =
        .ok items) :
    ∃ length, given.elim cursor.type.fixedLength .ok = .ok length := by
  cases given with
  | some length =>
      exact ⟨length, rfl⟩
  | none =>
      simp only [Decode.sequence, Decode.sequenceWith, isArray, Bool.not_true,
        Bool.false_eq_true, ↓reduceIte, Outcome.bind_eq_ok_iff] at decoded
      obtain ⟨_, _, length, isLength, _⟩ := decoded
      exact ⟨length, isLength⟩

variable (hash) in
/-- The elements of a fixed array lie from its slot on. -/
theorem arrayBlock_of_isFixedArray
    {path : String}
    {length : Int}
    (onType : contract.layout.lookup cursor.position.type = .ok cursor.type)
    (isText : cursor.path = .text path)
    (isFixedArray : cursor.type.isFixedArray)
    (found : contract.layout.elementOf cursor.type = .ok element)
    (inPlace : Decode.storedElsewhere contract.layout element = .ok false)
    (positive : 0 < element.size)
    (bounded : element.size ≤ greatestExactSize)
    (isLength : cursor.type.fixedLength = .ok length) :
    ArrayBlock hash contract.layout cursor path element cursor.position.slot
      length where
  onType := onType
  isText := isText
  isArray := by simp [TypeEntry.isArray, isFixedArray]
  found := found
  inPlace := inPlace
  positive := positive
  bounded := bounded
  starts := by
    intro index _ inside
    obtain ⟨encoding, _⟩ := TypeEntry.isFixedArray_iff.mp isFixedArray
    have notDynamic : cursor.type.isDynamicArray = false := by
      simp [TypeEntry.isDynamicArray, encoding]
    simp [Position.elementsStart, notDynamic, isLength, not_le_of_gt inside]

variable (hash) in
/-- The elements of a dynamic array lie from the hash of its slot on. -/
theorem arrayBlock_of_isDynamicArray
    {path : String}
    (length : Int)
    (onType : contract.layout.lookup cursor.position.type = .ok cursor.type)
    (isText : cursor.path = .text path)
    (isDynamicArray : cursor.type.isDynamicArray)
    (found : contract.layout.elementOf cursor.type = .ok element)
    (inPlace : Decode.storedElsewhere contract.layout element = .ok false)
    (positive : 0 < element.size)
    (bounded : element.size ≤ greatestExactSize)
    (inside : inSlotSpace cursor.position.slot) :
    ArrayBlock hash contract.layout cursor path element
      (hash (Word.ofNat cursor.position.slot.toNat)) length where
  onType := onType
  isText := isText
  isArray := by simp [TypeEntry.isArray, isDynamicArray]
  found := found
  inPlace := inPlace
  positive := positive
  bounded := bounded
  starts := by
    intro index _ _
    simp [Position.elementsStart, isDynamicArray, dataSlot, inside]

/-- A fixed array of whole elements has a length that its slots bound. -/
private theorem short_of_enough
    {length size : Int}
    (positive : 0 < element.size)
    (sizeBounded : size ≤ greatestExactSize)
    (enough : exactArraySpan length element.size ≤ (exactSpan size).toNat) :
    length ≤ 2 ^ 256 := by
  have : length ≤ 32 * exactArraySpan length element.size :=
    length_le_exactArraySpan positive
  simp only [exactSpan, greatestExactSize] at *
  omega

variable (hash) in
/-- What is read of a fixed array is decoded from its slots. -/
theorem read_of_isFixedArray
    (isFixedArray : cursor.type.isFixedArray)
    (notStruct : cursor.type.isStruct = false)
    (found : contract.layout.elementOf cursor.type = .ok element)
    (inPlace : Decode.storedElsewhere contract.layout element = .ok false)
    (nonneg : 0 ≤ cursor.type.size)
    (bounded : cursor.type.size ≤ greatestExactSize)
    (serves :
      provider.Serves cursor.position.address cursor.position.block
        memory state)
    (canShow : cursor.position.block.canShow) :
    (contract.read hash provider cursor state).1 =
      (Decode.sequence hash contract.layout
        (memory.words cursor.position.slot (exactSpan cursor.type.size).toNat)
        cursor.type none).map .list := by
  obtain ⟨encoding, _⟩ := TypeEntry.isFixedArray_iff.mp isFixedArray
  have readsInPlace :
      cursor.resolve hash contract.layout =
        cursor.readInPlace hash contract.layout :=
    Cursor.resolve_of_isStruct_or_isFixedArray encoding (.inr isFixedArray)
      fun _ => ⟨element, Decode.elementInPlace_eq found inPlace⟩
  rw [read_of_readInPlace serves canShow nonneg bounded readsInPlace]
  simp [notStruct]

/--
A whole array and its elements, read one by one, have the same values.

The length of a fixed array is in its label, and that of a dynamic one in its
slot.  What is read of the whole array is a list of this length, and every
index below it leads to a cursor that reads the item of the list.  The other
way round the whole array is read if all its elements are, at a block that can
be shown: a dynamic array if its slot exists, a fixed one if its size has room
for its elements.
-/
theorem read_array_iff_read_elements
    {position : Position}
    {path : String}
    (acyclic : contract.layout.Acyclic)
    (sizes : contract.layout.ExactSizes)
    (onPosition :
      Cursor.ofPosition contract.layout position (.text path) = .ok cursor)
    (isArray : cursor.type.isArray)
    (notStruct : cursor.type.isStruct = false)
    (found : contract.layout.elementOf cursor.type = .ok element)
    (inPlace : Decode.storedElsewhere contract.layout element = .ok false)
    (serves : provider.Serves position.address position.block memory state) :
    (∀ value,
      (contract.read hash provider cursor state).1 = .ok value →
      ∃ items,
        value = .list items ∧
          cursor.arrayLength memory = .ok items.length ∧
          ∀ index (inside : index < items.length),
            ∃ next,
              cursor.step hash contract.layout
                (.index (.int index)) = .ok next ∧
                ∀ later,
                  provider.Serves position.address position.block memory later →
                  (contract.read hash provider next later).1 =
                    .ok items[index]) ∧
    (∀ length : Nat,
      position.block.canShow →
      cursor.arrayLength memory = .ok length →
      (∀ index < length,
        ∃ next value later,
          provider.Serves cursor.position.address cursor.position.block
            memory later ∧
            cursor.step hash contract.layout (.index (.int index)) = .ok next ∧
            (contract.read hash provider next later).1 = .ok value) →
      (cursor.type.isDynamicArray → inSlotSpace position.slot) →
      (cursor.type.isFixedArray →
        ∃ needed span,
          arraySpan length element.size = .ok needed ∧
            slotSpan cursor.type.size = .ok span ∧
            needed ≤ span) →
      ∃ items,
        (contract.read hash provider cursor state).1 = .ok (.list items)) := by
  obtain ⟨positive, bounded⟩ := sizes element (Layout.mem_types_of_lookup found)
  simp only [Cursor.ofPosition, Outcome.bind_eq_ok_iff] at onPosition
  obtain ⟨type, onType, isCursor⟩ := onPosition
  cases isCursor
  obtain ⟨typePositive, typeBounded⟩ :=
    sizes type (Layout.mem_types_of_lookup onType)
  by_cases isDynamicArray : type.isDynamicArray
  · have block (inside : inSlotSpace position.slot) :=
      arrayBlock_of_isDynamicArray hash
        (Bytes.toNat (memory.word position.slot)) onType rfl
        isDynamicArray found inPlace positive bounded inside
    have reads (inside : inSlotSpace position.slot)
        (canShow : position.block.canShow) :=
      read_of_isDynamicArray hash isDynamicArray notStruct found inPlace
        positive bounded inside serves canShow
    have isLength (length : Int) :
        (some length).elim type.fixedLength .ok = .ok length :=
      rfl
    have short := storedLength_le memory position.slot
    constructor
    · intro value isRead
      have canShow := canShow_of_read typePositive typeBounded isRead
      have inside :=
        inSlotSpace_of_read_isDynamicArray isDynamicArray notStruct found
          inPlace positive bounded isRead
      rw [reads inside canShow, Outcome.map_eq_ok_iff] at isRead
      obtain ⟨items, decoded, rfl⟩ := isRead
      obtain ⟨sameLength, elements⟩ :=
        (block inside).read_element_of_sequence acyclic canShow (isLength _)
          (fun _ => short) decoded
      refine ⟨items, rfl, ?_, elements⟩
      simp [Cursor.arrayLength, isDynamicArray, sameLength]
    · intro length canShow hasLength elements slotExists _
      have inside := slotExists isDynamicArray
      simp only [Cursor.arrayLength, isDynamicArray, ↓reduceIte,
        Except.ok.injEq, Nat.cast_inj] at hasLength
      obtain ⟨items, decoded⟩ :=
        (block inside).sequence_of_read_element acyclic canShow
          (isLength _) short (Int.self_le_toNat _)
          fun index inArray => elements index (by omega)
      exact ⟨items, by rw [reads inside canShow, decoded]; rfl⟩
  · have isFixedArray : type.isFixedArray := by
      simpa [TypeEntry.isArray, isDynamicArray] using isArray
    have block {length : Int} (isLength : type.fixedLength = .ok length) :=
      arrayBlock_of_isFixedArray hash onType rfl isFixedArray found inPlace
        positive bounded isLength
    have reads (canShow : position.block.canShow) :=
      read_of_isFixedArray hash isFixedArray notStruct found inPlace
        typePositive.le typeBounded serves canShow
    have short {length : Int} :=
      @short_of_enough _ length _ positive typeBounded
    constructor
    · intro value isRead
      have canShow := canShow_of_read typePositive typeBounded isRead
      rw [reads canShow, Outcome.map_eq_ok_iff] at isRead
      obtain ⟨items, decoded, rfl⟩ := isRead
      obtain ⟨length, isLength⟩ := exists_length_of_sequence isArray decoded
      obtain ⟨sameLength, elements⟩ :=
        (block isLength).read_element_of_sequence acyclic canShow isLength
          short decoded
      refine ⟨items, rfl, ?_, elements⟩
      have nonneg : 0 ≤ length :=
        TypeEntry.fixedLength_nonneg isLength
      simp only [Cursor.arrayLength, isDynamicArray, Bool.false_eq_true,
        ↓reduceIte]
      rw [sameLength, Int.toNat_of_nonneg nonneg]
      exact isLength
    · intro length canShow hasLength elements _ sizeSuffices
      simp only [Cursor.arrayLength, isDynamicArray, Bool.false_eq_true,
        ↓reduceIte] at hasLength
      obtain ⟨needed, span, isNeeded, isSpan, needed_le⟩ :=
        sizeSuffices isFixedArray
      rw [arraySpan_eq (fun _ => positive) bounded] at isNeeded
      rw [slotSpan_eq typePositive.le typeBounded] at isSpan
      cases isNeeded
      cases isSpan
      have enough :
          exactArraySpan length element.size ≤ (exactSpan type.size).toNat :=
        needed_le.trans (Int.self_le_toNat _)
      have isLength :
          (none : Option Int).elim type.fixedLength .ok = .ok (length : Int) :=
        hasLength
      obtain ⟨items, decoded⟩ :=
        (block hasLength).sequence_of_read_element acyclic canShow isLength
          (short enough) enough fun index inArray => elements index (by omega)
      exact ⟨items, by rw [reads canShow, decoded]; rfl⟩

/-- A type of one word. -/
def wordType : TypeEntry where
  id := "word"
  label := .text "uint256"
  encoding := .inplace
  size := 32
  base := none
  key := none
  value := none
  members := none

/-- A type of two words, one behind the other. -/
def pairType : TypeEntry where
  id := "pair"
  label := .text "uint256[2]"
  encoding := .inplace
  size := 64
  base := some (.text "word")
  key := none
  value := none
  members := none

/-- A type of any number of words. -/
def manyType : TypeEntry where
  id := "many"
  label := .text "uint256[]"
  encoding := .dynamicArray
  size := 32
  base := some (.text "word")
  key := none
  value := none
  members := none

/--
A contract with a pair at the last slot, an array behind it and a label that is
a number.
-/
def arrays : Contract where
  address := "0x00"
  layout := {
    stateVariables := [
      { label := .text "pair", type := .text "pair",
        slot := 2 ^ 256 - 1, offset := 0 },
      { label := .text "far", type := .text "many",
        slot := 2 ^ 256, offset := 0 },
      { label := .int 5, type := .text "pair", slot := 0, offset := 0 }
    ]
    types := [wordType, pairType, manyType]
  }
  defaultBlock := .text "latest"

/-- The cursor on the pair at the last slot. -/
def pairCursor : Cursor where
  position := {
    slot := 2 ^ 256 - 1
    offset := 0
    type := .text "pair"
    address := "0x00"
    block := .text "latest"
  }
  type := pairType
  path := .text "pair"

/--
The elements of an array at the last slot are read there and at the first one.
-/
theorem read_elements_behind_last_slot :
    ∃ first second,
      pairCursor.step Keccak.digest arrays.layout (.index (.int 0)) =
        .ok first ∧
        pairCursor.step Keccak.digest arrays.layout (.index (.int 1)) =
          .ok second ∧
        (arrays.read Keccak.digest Memory.slotNumbers.provider first ()).1 =
          .ok (.int (2 ^ 256 - 1)) ∧
        (arrays.read Keccak.digest Memory.slotNumbers.provider second ()).1 =
          .ok (.int 0) := by
  have onPosition :
      Cursor.ofPosition arrays.layout pairCursor.position (.text "pair") =
        .ok pairCursor :=
    rfl
  have found : arrays.layout.elementOf pairType = .ok wordType :=
    rfl
  have inPlace : Decode.storedElsewhere arrays.layout wordType = .ok false :=
    Decode.storedElsewhere_of_base_isNone rfl rfl
  have serves :=
    Memory.serves_provider Memory.slotNumbers "0x00" (.text "latest")
  have isRead :
      (arrays.read Keccak.digest Memory.slotNumbers.provider pairCursor ()).1 =
        .ok (.list [.int (2 ^ 256 - 1), .int 0]) :=
    Outcome.eq_ok_of_toOption (by decide +kernel)
  obtain ⟨items, areItems, _, elements⟩ :=
    (read_array_iff_read_elements (by decide +kernel)
      (by decide +kernel) onPosition rfl rfl found inPlace serves).1 _ isRead
  cases areItems
  obtain ⟨first, toFirst, readFirst⟩ := elements 0 (by decide)
  obtain ⟨second, toSecond, readSecond⟩ := elements 1 (by decide)
  exact ⟨first, second, toFirst, toSecond, readFirst () serves,
    readSecond () serves⟩

/--
Without the two conditions on slot and path arrays and their elements differ.

An array of no elements is not read if its slot does not exist.  An array
whose variable has a number as its label is read, but not its elements.
-/
theorem read_array_without_elements :
    arrays.layout.Acyclic ∧
      arrays.layout.ExactSizes ∧
      (∃ cursor,
        arrays.cursorOn (.text "far") = .ok cursor ∧
          cursor.type = manyType ∧
          cursor.arrayLength Memory.slotNumbers = .ok 0 ∧
          (arrays.read Keccak.digest Memory.slotNumbers.provider
            cursor ()).1.toOption =
            none) ∧
      ∃ cursor,
        arrays.cursorOn (.int 5) = .ok cursor ∧
          cursor.type = pairType ∧
          (arrays.read Keccak.digest Memory.slotNumbers.provider
            cursor ()).1.toOption =
            some (.list [.int 0, .int 1]) ∧
          (cursor.step Keccak.digest arrays.layout (.index (.int 0))).toOption =
            none := by
  refine ⟨by decide +kernel, by decide +kernel, ⟨_, rfl, ?_⟩, ⟨_, rfl, ?_⟩⟩
  · exact ⟨rfl, rfl, by decide +kernel⟩
  · exact ⟨rfl, by decide +kernel, by decide +kernel⟩

end Contract

end EvmStorage
