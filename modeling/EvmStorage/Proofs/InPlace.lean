import EvmStorage.Proofs.Memory
import EvmStorage.Proofs.Nesting
import EvmStorage.Proofs.Span

namespace EvmStorage

/-!
# Values read in place

A cursor on a value that lies in its own slots reads exactly these slots, and
what it returns is the value that decoding finds in their words.  So whole
values and their parts are read alike, whichever of them a cursor stands on.
-/

namespace Decode

variable {layout : Layout}

/-- A type whose values do not lie elsewhere is stored in place. -/
theorem encoding_of_storedElsewhere
    {type : TypeEntry}
    (inPlace : storedElsewhere layout type = .ok false) :
    type.encoding = .inplace := by
  by_contra notInPlace
  rw [storedElsewhere_of_encoding notInPlace] at inPlace
  cases inPlace

/--
The elements of a fixed array that lies in its own slots lie there as well.
-/
theorem elementInPlace_of_storedElsewhere
    (acyclic : layout.Acyclic)
    {type : TypeEntry}
    (inTable : type ∈ layout.types)
    (isFixedArray : type.isFixedArray)
    (inPlace : storedElsewhere layout type = .ok false) :
    ∃ element,
      elementInPlace layout type = .ok element ∧
        storedElsewhere layout element = .ok false := by
  rw [storedElsewhere_of_isFixedArray acyclic inTable isFixedArray,
    Outcome.bind_eq_ok_iff] at inPlace
  obtain ⟨element, found, elementHere⟩ := inPlace
  refine ⟨element, ?_, elementHere⟩
  simp [elementInPlace, found, elementHere]

/-- The elements of an array whose elements are decoded do not lie elsewhere. -/
theorem storedElsewhere_of_elementInPlace
    {type element : TypeEntry}
    (found : elementInPlace layout type = .ok element)
    (isElement : layout.elementOf type = .ok element) :
    storedElsewhere layout element = .ok false := by
  simp only [elementInPlace, isElement, Outcome.ok_bind, Outcome.bind_eq_ok_iff]
    at found
  obtain ⟨elsewhere, isElsewhere, result⟩ := found
  cases elsewhere with
  | true =>
      cases result
  | false =>
      exact isElsewhere

/--
Whether the values of a type lie elsewhere is known if the elements of all
arrays are.
-/
theorem exists_storedElsewhere_of_acyclic
    (acyclic : layout.Acyclic)
    (defined :
      ∀ type ∈ layout.types,
        type.isFixedArray →
        ∃ element, layout.elementOf type = .ok element)
    {type : TypeEntry}
    (inTable : type ∈ layout.types) :
    ∃ elsewhere, storedElsewhere layout type = .ok elsewhere := by
  apply acyclic.induction _ inTable
  intro type inTable ofParts
  by_cases isInPlace : type.encoding = .inplace
  · cases hasBase : type.base with
    | none =>
        exact ⟨false, storedElsewhere_of_base_isNone isInPlace hasBase⟩
    | some base =>
        have isFixedArray : type.isFixedArray :=
          TypeEntry.isFixedArray_iff.mpr ⟨isInPlace, base, hasBase⟩
        obtain ⟨element, found⟩ := defined type inTable isFixedArray
        rw [storedElsewhere_of_isFixedArray acyclic inTable isFixedArray, found]
        exact ofParts element (Layout.isPartOf_of_element isFixedArray found)
  · exact ⟨true, storedElsewhere_of_encoding isInPlace⟩

end Decode

namespace Cursor

variable {hash : Digest} {layout : Layout} {cursor : Cursor}

/-- A cursor on a scalar reads its slot. -/
theorem resolve_of_isScalar
    (isScalar : cursor.type.isScalar) :
    cursor.resolve hash layout = cursor.readScalar hash := by
  obtain ⟨inPlace, _⟩ := TypeEntry.isScalar_iff.mp isScalar
  simp [resolve, TypeEntry.isMapping, inPlace, isScalar]

/-- A cursor on a struct or a fixed array of values in place reads its slots. -/
theorem resolve_of_isStruct_or_isFixedArray
    (inPlace : cursor.type.encoding = .inplace)
    (hasParts : cursor.type.isStruct ∨ cursor.type.isFixedArray)
    (elementHere :
      cursor.type.isFixedArray →
      ∃ element, Decode.elementInPlace layout cursor.type = .ok element) :
    cursor.resolve hash layout = cursor.readInPlace hash layout := by
  have notMapping : cursor.type.isMapping = false := by
    simp [TypeEntry.isMapping, inPlace]
  have notDynamic : cursor.type.isDynamicArray = false := by
    simp [TypeEntry.isDynamicArray, inPlace]
  have notScalar : cursor.type.isScalar = false := by
    rcases hasParts with isStruct | isFixedArray
    · exact TypeEntry.isScalar_of_isStruct isStruct
    · exact TypeEntry.isScalar_of_isFixedArray isFixedArray
  by_cases isFixedArray : cursor.type.isFixedArray
  · obtain ⟨element, found⟩ := elementHere isFixedArray
    simp only [resolve, notMapping, notScalar, TypeEntry.isArray, isFixedArray,
      found, Bool.true_or, Bool.or_true, Reading.done_ok_bind, ↓reduceIte,
      Bool.false_eq_true]
  · have isStruct := hasParts.resolve_right isFixedArray
    simp only [resolve, notMapping, notScalar, TypeEntry.isArray, isFixedArray,
      notDynamic, isStruct, Bool.or_false, ↓reduceIte, Bool.false_eq_true]

/--
A cursor on a dynamic array of values in place reads its length and its
elements.
-/
theorem resolve_of_isDynamicArray
    {element : TypeEntry}
    (isDynamicArray : cursor.type.isDynamicArray)
    (notStruct : cursor.type.isStruct = false)
    (elementHere : Decode.elementInPlace layout cursor.type = .ok element) :
    cursor.resolve hash layout = cursor.readDynamicArray hash layout := by
  have encoding : cursor.type.encoding = .dynamicArray := by
    simpa [TypeEntry.isDynamicArray] using isDynamicArray
  have notMapping : cursor.type.isMapping = false := by
    simp [TypeEntry.isMapping, encoding]
  have notFixed : cursor.type.isFixedArray = false := by
    simp [TypeEntry.isFixedArray, encoding]
  have notScalar : cursor.type.isScalar = false := by
    simp [TypeEntry.isScalar, encoding]
  simp only [resolve, notMapping, notScalar, TypeEntry.isArray, isDynamicArray,
    notFixed, notStruct, elementHere, Bool.or_true, Bool.or_self,
    Reading.done_ok_bind, ↓reduceIte, Bool.false_eq_true]

/-- No value that takes room is there before the word of a slot. -/
theorem resolve_ne_done
    (positive : 0 < cursor.type.size)
    (bounded : cursor.type.size ≤ greatestExactSize)
    (value : Value) :
    cursor.resolve hash layout ≠ .done (.ok value) := by
  have notInPlace : cursor.readInPlace hash layout ≠ .done (.ok value) := by
    have takesSlots : 0 < (exactSpan cursor.type.size).toNat := by
      have := exactSpan_pos positive
      omega
    obtain ⟨more, isMore⟩ := Nat.exists_eq_add_one_of_ne_zero takesSlots.ne'
    unfold readInPlace
    rw [slotSpan_eq positive.le bounded]
    dsimp only
    rw [isMore, Reading.slots]
    exact fun isDone => by cases isDone
  have notInParts :
      (if cursor.type.isStruct || cursor.type.isFixedArray then
        cursor.readInPlace hash layout
      else if cursor.type.isDynamicArray then
        cursor.readDynamicArray hash layout
      else
        cursor.readBytes hash) ≠ .done (.ok value) := by
    split_ifs
    · exact notInPlace
    · exact fun isDone => by cases isDone
    · exact fun isDone => by cases isDone
  unfold resolve
  dsimp only
  split
  · exact fun isDone => by cases isDone
  split
  · exact fun isDone => by cases isDone
  split
  · cases Decode.elementInPlace layout cursor.type with
    | ok element =>
        exact notInParts
    | error fault =>
        exact fun isDone => by cases isDone
  · exact notInParts

/-- A mapping has no value, and nothing is read to see it. -/
theorem resolve_of_isMapping
    (isMapping : cursor.type.isMapping) :
    cursor.resolve hash layout =
      .done (.error
        (.schema (.unselectedMapping cursor.path cursor.type.label))) := by
  simp only [resolve, isMapping, ↓reduceIte]

/--
An array whose elements cannot be decoded has no value, and nothing is read to
see it.
-/
theorem resolve_of_elementInPlace_error
    {fault : Fault}
    (isArray : cursor.type.isArray)
    (noElement : Decode.elementInPlace layout cursor.type = .error fault) :
    cursor.resolve hash layout = .done (.error fault) := by
  simp only [resolve, TypeEntry.isMapping_of_isArray isArray,
    TypeEntry.isScalar_of_isArray isArray, isArray, noElement,
    Reading.done_error_bind, ↓reduceIte, Bool.false_eq_true]

/--
An array whose elements lie elsewhere has no value, and nothing is read to see
it.
-/
theorem resolve_of_elementsElsewhere
    {element : TypeEntry}
    (isArray : cursor.type.isArray)
    (isElement : layout.elementOf cursor.type = .ok element)
    (isElsewhere : Decode.storedElsewhere layout element = .ok true) :
    cursor.resolve hash layout =
      .done (.error
        (.unsupported (.elementsElsewhere cursor.type.label element.label))) :=
  resolve_of_elementInPlace_error isArray
    (by simp [Decode.elementInPlace, isElement, isElsewhere])

end Cursor

namespace Contract

variable {hash : Digest} {contract : Contract} {cursor : Cursor}
  {memory : Memory} {provider : Provider σ} {state : σ}

/--
A cursor on a struct or a fixed array returns what is decoded from its slots.
-/
theorem read_of_readInPlace
    (serves :
      provider.Serves cursor.position.address cursor.position.block
        memory state)
    (canShow : cursor.position.block.canShow)
    (nonneg : 0 ≤ cursor.type.size)
    (bounded : cursor.type.size ≤ greatestExactSize)
    (readsInPlace :
      cursor.resolve hash contract.layout =
        cursor.readInPlace hash contract.layout) :
    (contract.read hash provider cursor state).1 =
      let words :=
        memory.words cursor.position.slot (exactSpan cursor.type.size).toNat
      if cursor.type.isStruct then
        (Decode.struct hash contract.layout words cursor.type).map .struct
      else
        (Decode.sequence hash contract.layout words cursor.type none).map
          .list := by
  rw [read, readsInPlace]
  unfold Cursor.readInPlace
  rw [slotSpan_eq nonneg bounded]
  exact serves.run_slots canShow _ _ _

/--
A cursor on a value that lies in its own slots returns what decoding finds in
the words of these slots.
-/
theorem read_of_inPlace
    (acyclic : contract.layout.Acyclic)
    (inTable : cursor.type ∈ contract.layout.types)
    (inPlace : Decode.storedElsewhere contract.layout cursor.type = .ok false)
    (nonneg : 0 ≤ cursor.type.size)
    (bounded : cursor.type.size ≤ greatestExactSize)
    (scalarExists :
      cursor.type.isScalar →
      0 < cursor.type.size ∧ inSlotSpace cursor.position.slot)
    (serves :
      provider.Serves cursor.position.address cursor.position.block
        memory state)
    (canShow : cursor.position.block.canShow) :
    (contract.read hash provider cursor state).1 =
      Decode.value hash contract.layout
        (memory.words cursor.position.slot (exactSpan cursor.type.size).toNat)
        cursor.position.offset cursor.type := by
  have encoding := Decode.encoding_of_storedElsewhere inPlace
  by_cases isScalar : cursor.type.isScalar
  · obtain ⟨positive, inside⟩ := scalarExists isScalar
    have isSlot : cursor.position.slot % slotModulus = cursor.position.slot :=
      emod_slotModulus_of_inSlotSpace inside
    obtain ⟨more, isMore⟩ :
        ∃ more, (exactSpan cursor.type.size).toNat = more + 1 := by
      have := exactSpan_pos positive
      exact ⟨(exactSpan cursor.type.size).toNat - 1, by omega⟩
    rw [isMore, Memory.words_succ, isSlot, Decode.value_of_isScalar isScalar]
    simp only [read, Cursor.resolve_of_isScalar isScalar, Cursor.readScalar,
      Reading.slot_bind]
    obtain ⟨later, _, goesOn⟩ :=
      serves.run_word canShow inside fun word => .done do
        let data ← Word.window word cursor.position.offset cursor.type.size
        Decode.scalar hash data cursor.type
    rw [goesOn]
    rfl
  · have hasParts := TypeEntry.isStruct_or_isFixedArray encoding isScalar
    have readsInPlace :
        cursor.resolve hash contract.layout =
          cursor.readInPlace hash contract.layout := by
      apply Cursor.resolve_of_isStruct_or_isFixedArray encoding hasParts
      intro isFixedArray
      obtain ⟨element, found, _⟩ :=
        Decode.elementInPlace_of_storedElsewhere acyclic inTable
          isFixedArray inPlace
      exact ⟨element, found⟩
    rw [read_of_readInPlace serves canShow nonneg bounded readsInPlace]
    by_cases isStruct : cursor.type.isStruct
    · simp only [isStruct, ↓reduceIte,
        Decode.value_of_isStruct acyclic inTable isStruct]
    · have isFixedArray := hasParts.resolve_left isStruct
      rw [Bool.not_eq_true] at isStruct
      simp only [isStruct, ↓reduceIte, Bool.false_eq_true,
        Decode.value_of_isFixedArray acyclic inTable isStruct isFixedArray]

/-- A value that takes room is read only at a block that can be shown. -/
theorem canShow_of_read
    (positive : 0 < cursor.type.size)
    (bounded : cursor.type.size ≤ greatestExactSize)
    {value : Value}
    (isRead : (contract.read hash provider cursor state).1 = .ok value) :
    cursor.position.block.canShow := by
  by_contra hidden
  rw [Bool.not_eq_true] at hidden
  unfold read at isRead
  cases resolves : cursor.resolve hash contract.layout with
  | done result =>
      rw [resolves] at isRead
      have isDone : result = .ok value := isRead
      rw [isDone] at resolves
      exact Cursor.resolve_ne_done positive bounded value resolves
  | word slot next =>
      rw [resolves, Provider.run_word_of_hidden hidden] at isRead
      cases isRead

/-- Where the elements of a fixed array lie is known if the array is read. -/
theorem elementInPlace_of_read
    (isFixedArray : cursor.type.isFixedArray)
    {value : Value}
    (isRead : (contract.read hash provider cursor state).1 = .ok value) :
    ∃ element,
      Decode.elementInPlace contract.layout cursor.type = .ok element := by
  cases found : Decode.elementInPlace contract.layout cursor.type with
  | ok element =>
      exact ⟨element, rfl⟩
  | error fault =>
      obtain ⟨inPlace, _⟩ := TypeEntry.isFixedArray_iff.mp isFixedArray
      have notMapping : cursor.type.isMapping = false := by
        simp [TypeEntry.isMapping, inPlace]
      have notScalar := TypeEntry.isScalar_of_isFixedArray isFixedArray
      simp only [read, Cursor.resolve, notMapping, notScalar, TypeEntry.isArray,
        isFixedArray, found, Bool.true_or, Reading.done_error_bind,
        Provider.run, ↓reduceIte, Bool.false_eq_true] at isRead
      cases isRead

/-- A value that is read and does not lie elsewhere lies in its own slots. -/
theorem storedElsewhere_of_read
    (acyclic : contract.layout.Acyclic)
    (inTable : cursor.type ∈ contract.layout.types)
    (notElsewhere :
      Decode.storedElsewhere contract.layout cursor.type ≠ .ok true)
    {value : Value}
    (isRead : (contract.read hash provider cursor state).1 = .ok value) :
    Decode.storedElsewhere contract.layout cursor.type = .ok false := by
  have encoding : cursor.type.encoding = .inplace := by
    by_contra notInPlace
    exact notElsewhere (Decode.storedElsewhere_of_encoding notInPlace)
  cases hasBase : cursor.type.base with
  | none =>
      exact Decode.storedElsewhere_of_base_isNone encoding hasBase
  | some base =>
      have isFixedArray : cursor.type.isFixedArray :=
        TypeEntry.isFixedArray_iff.mpr ⟨encoding, base, hasBase⟩
      obtain ⟨element, found⟩ := elementInPlace_of_read isFixedArray isRead
      have isElement := Decode.elementOf_of_elementInPlace found
      rw [Decode.storedElsewhere_of_isFixedArray acyclic inTable isFixedArray,
        isElement]
      exact Decode.storedElsewhere_of_elementInPlace found isElement

end Contract

end EvmStorage
