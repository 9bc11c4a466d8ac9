import EvmStorage.Proofs.Overwrite
import EvmStorage.Proofs.Parts
import EvmStorage.Proofs.ScalarValue
import EvmStorage.Proofs.WellPlaced

namespace EvmStorage

/-!
# Values and the bytes that store them

A value that lies in its own slots is a tree of scalars.  Its type says where
the bytes of every scalar belong: members start where the layout puts them,
elements where their index and their size put them.  In a layout of the shape
that compilers give to layouts these bytes never overlap.
-/

/-- The first byte of a member, counted from the first byte of its struct. -/
def Variable.firstByte (member : Variable) : Int :=
  32 * member.slot + member.offset

/-- The first byte of an element, counted from the first byte of its array. -/
def ElementPlace.firstByte (place : ElementPlace) : Int :=
  32 * place.slot + place.offset

/-- A value of a type that lies in its own slots. -/
inductive ValueTree (layout : Layout) : TypeEntry → Type where
  | scalar
      {type : TypeEntry}
      (isScalar : type.isScalar)
      (stored : ScalarValue type) :
      ValueTree layout type
  | struct
      {type : TypeEntry}
      (members : List Variable)
      (memberType : Fin members.length → TypeEntry)
      (isInPlace : type.encoding = .inplace)
      (hasMembers : type.members = some members)
      (found :
        ∀ place, layout.lookup members[place].type = .ok (memberType place))
      (parts : ∀ place, ValueTree layout (memberType place)) :
      ValueTree layout type
  | array
      {type : TypeEntry}
      (element : TypeEntry)
      (length : Nat)
      (isFixedArray : type.isFixedArray)
      (hasLength : type.HasLength length)
      (found : layout.elementOf type = .ok element)
      (inPlace : Decode.storedElsewhere layout element = .ok false)
      (parts : Fin length → ValueTree layout element) :
      ValueTree layout type

namespace ValueTree

variable {layout : Layout} {type : TypeEntry}

/-- A value as it is shown, with the labels of members. -/
def value (hash : Digest) : {type : TypeEntry} → ValueTree layout type → Value
  | _, .scalar _ stored => stored.value hash
  | _, .struct members _ _ _ _ parts =>
      .struct (List.ofFn fun place =>
        (members[place].label, (parts place).value hash))
  | _, .array _ _ _ _ _ _ parts =>
      .list (List.ofFn fun index => (parts index).value hash)

/-- The bytes that store a value which starts at an address. -/
def leaves : {type : TypeEntry} → ValueTree layout type → Int → List Leaf
  | _, .scalar _ stored, start => [{ start, content := stored.content }]
  | _, .struct members _ _ _ _ parts, start =>
      (List.finRange members.length).flatMap fun place =>
        (parts place).leaves (start + members[place].firstByte)
  | _, .array element length _ _ _ _ parts, start =>
      (List.finRange length).flatMap fun index =>
        (parts index).leaves
          (start + (exactPlace index.val element.size).firstByte)

/-- A value that lies in its own slots has a type of this encoding. -/
theorem encoding (tree : ValueTree layout type) :
    type.encoding = .inplace := by
  cases tree with
  | scalar isScalar stored =>
      exact (TypeEntry.isScalar_iff.mp isScalar).1
  | struct members memberType isInPlace hasMembers found parts =>
      exact isInPlace
  | array element length isFixedArray hasLength found inPlace parts =>
      exact (TypeEntry.isFixedArray_iff.mp isFixedArray).1

end ValueTree

/--
Whether no byte lies in two ranges, each given by its first byte and its size.
-/
def RangesApart (first firstSize second secondSize : Int) : Prop :=
  ∀ address,
    first ≤ address ∧ address < first + firstSize →
    ¬ (second ≤ address ∧ address < second + secondSize)

instance (first firstSize second secondSize : Int) :
    Decidable (RangesApart first firstSize second secondSize) :=
  decidable_of_iff
    (firstSize ≤ 0 ∨ secondSize ≤ 0 ∨ first + firstSize ≤ second ∨
      second + secondSize ≤ first)
    (by
      constructor
      · intro order address
        omega
      · intro apart
        have atFirst := apart first
        have atSecond := apart second
        omega)

/-- Whether the members of a struct have places and labels of their own. -/
structure Layout.WellPacked
    (layout : Layout)
    (type : TypeEntry)
    (members : List Variable) :
    Prop where
  positive : 0 < type.size
  whole : 32 ∣ type.size
  nonneg : ∀ member ∈ members, 0 ≤ member.slot
  fits : ∀ member ∈ members, layout.FitsAt member.type member.offset
  inside :
    ∀ member ∈ members, ∀ memberType,
      layout.lookup member.type = .ok memberType →
      member.firstByte + memberType.size ≤ type.size
  apart :
    members.Pairwise fun earlier later =>
      ∀ earlierType, layout.lookup earlier.type = .ok earlierType →
      ∀ laterType, layout.lookup later.type = .ok laterType →
        RangesApart earlier.firstByte earlierType.size later.firstByte
          laterType.size
  distinct : DistinctLabels members

instance (layout : Layout) (type : TypeEntry) (members : List Variable) :
    Decidable (layout.WellPacked type members) :=
  decidable_of_iff
    (0 < type.size ∧ 32 ∣ type.size ∧
      (∀ member ∈ members, 0 ≤ member.slot) ∧
      (∀ member ∈ members, layout.FitsAt member.type member.offset) ∧
      (∀ member ∈ members, ∀ memberType,
        layout.lookup member.type = .ok memberType →
        member.firstByte + memberType.size ≤ type.size) ∧
      (members.Pairwise fun earlier later =>
        ∀ earlierType, layout.lookup earlier.type = .ok earlierType →
        ∀ laterType, layout.lookup later.type = .ok laterType →
          RangesApart earlier.firstByte earlierType.size later.firstByte
            laterType.size) ∧
      DistinctLabels members)
    ⟨fun ⟨positive, whole, nonneg, fits, inside, apart, distinct⟩ =>
        { positive, whole, nonneg, fits, inside, apart, distinct },
      fun packed =>
        ⟨packed.positive, packed.whole, packed.nonneg, packed.fits,
          packed.inside, packed.apart, packed.distinct⟩⟩

/-- Whether values in their own slots are laid out as compilers do it. -/
structure Layout.InPlaceShaped (layout : Layout) : Prop where
  acyclic : layout.Acyclic
  exclusive : ∀ type ∈ layout.types, type.members = none ∨ type.base = none
  bounded : ∀ type ∈ layout.types, type.size ≤ greatestExactSize
  scalars : ∀ type ∈ layout.types, type.isScalar → type.size ≤ 32
  structs :
    ∀ type ∈ layout.types, type.encoding = .inplace →
      ∀ members ∈ type.members, layout.WellPacked type members
  arrays :
    ∀ type ∈ layout.types, type.isFixedArray →
      ∃ element length span,
        layout.elementOf type = .ok element ∧
          type.HasLength length ∧
          arraySpan length element.size = .ok span ∧
          type.size = 32 * span

/-- Whether scalars have bytes and members have labels that can be keys. -/
structure Layout.Readable (layout : Layout) : Prop extends
    layout.InPlaceShaped where
  notEmpty : ∀ type ∈ layout.types, type.isScalar → 0 < type.size
  areKeys :
    ∀ type ∈ layout.types, type.encoding = .inplace →
      ∀ member ∈ type.members.getD [], member.label.isKey

/--
The length in the label of an array is read if the size of the array is that of
its slots.
-/
theorem TypeEntry.fixedLength_of_size
    {type : TypeEntry}
    {length : Nat}
    {elementSize : Int}
    (isFixedArray : type.isFixedArray)
    (hasLength : type.HasLength length)
    (isSize : type.size = 32 * exactArraySpan length elementSize)
    (sized : 0 < length → 0 < elementSize)
    (bounded : type.size ≤ greatestExactSize) :
    type.fixedLength = .ok (length : Int) := by
  have small : length ≤ 10 ^ 16 := by
    by_cases empty : length = 0
    · omega
    · have few := @length_le_exactArraySpan length elementSize
        (sized (by omega))
      simp only [greatestExactSize] at bounded
      omega
  apply TypeEntry.fixedLength_of_hasLength isFixedArray hasLength
  calc
    length ≤ 10 ^ 16 := small
    _ < 10 ^ Numeral.maxDecimalDigits :=
      Nat.pow_lt_pow_right (by decide) (by decide)

namespace Layout.InPlaceShaped

variable {layout : Layout} {type element : TypeEntry} {length : Nat}

/--
The size of an array is that of its slots, and without a size there are no
elements.
-/
theorem size_of_isFixedArray
    (shaped : layout.InPlaceShaped)
    (inTable : type ∈ layout.types)
    (isFixedArray : type.isFixedArray)
    (found : layout.elementOf type = .ok element)
    (hasLength : type.HasLength length) :
    type.size = 32 * exactArraySpan length element.size ∧
      (0 < length → 0 < element.size) := by
  obtain ⟨other, otherLength, span, isOther, hasOther, isSpan, isSize⟩ :=
    shaped.arrays type inTable isFixedArray
  cases found.symm.trans isOther
  cases hasLength.unique hasOther
  have bounded := shaped.bounded element (Layout.mem_types_of_lookup found)
  obtain ⟨isExact, sized⟩ := eq_exactArraySpan bounded isSpan
  exact ⟨by rw [isSize, isExact],
    fun notEmpty => sized (Int.natCast_pos.mpr notEmpty)⟩

/-- The length in the label of an array is the one that is read. -/
theorem fixedLength_eq
    (shaped : layout.InPlaceShaped)
    (inTable : type ∈ layout.types)
    (isFixedArray : type.isFixedArray)
    (found : layout.elementOf type = .ok element)
    (hasLength : type.HasLength length) :
    type.fixedLength = .ok (length : Int) := by
  obtain ⟨isSize, sized⟩ :=
    shaped.size_of_isFixedArray inTable isFixedArray found hasLength
  exact TypeEntry.fixedLength_of_size isFixedArray hasLength isSize sized
    (shaped.bounded type inTable)

/-- An array is no struct. -/
theorem isStruct_of_isFixedArray
    (shaped : layout.InPlaceShaped)
    (inTable : type ∈ layout.types)
    (isFixedArray : type.isFixedArray) :
    type.isStruct = false := by
  obtain ⟨_, base, hasBase⟩ := TypeEntry.isFixedArray_iff.mp isFixedArray
  rcases shaped.exclusive type inTable with noMembers | noBase
  · simp [TypeEntry.isStruct, noMembers]
  · rw [hasBase] at noBase
    cases noBase

end Layout.InPlaceShaped

namespace Layout.Readable

variable {layout : Layout} {type : TypeEntry}

/-- A scalar takes a part of one slot. -/
theorem size_of_isScalar
    (shaped : layout.Readable)
    (inTable : type ∈ layout.types)
    (isScalar : type.isScalar) :
    0 < type.size ∧ type.size ≤ 32 :=
  ⟨shaped.notEmpty type inTable isScalar, shaped.scalars type inTable isScalar⟩

/-- What is no scalar takes whole slots. -/
theorem dvd_size
    (shaped : layout.Readable)
    (inTable : type ∈ layout.types)
    (isInPlace : type.encoding = .inplace)
    (notScalar : type.isScalar = false) :
    0 ≤ type.size ∧ 32 ∣ type.size := by
  cases hasMembers : type.members with
  | some members =>
      have packed := shaped.structs type inTable isInPlace members hasMembers
      exact ⟨packed.positive.le, packed.whole⟩
  | none =>
      have isFixedArray : type.isFixedArray := by
        cases hasBase : type.base with
        | none =>
            have isScalar :=
              TypeEntry.isScalar_iff.mpr ⟨isInPlace, hasBase, hasMembers⟩
            simp [isScalar] at notScalar
        | some base =>
            exact TypeEntry.isFixedArray_iff.mpr ⟨isInPlace, base, hasBase⟩
      obtain ⟨element, length, _, found, hasLength, _, _⟩ :=
        shaped.arrays type inTable isFixedArray
      obtain ⟨isSize, positive⟩ :=
        shaped.size_of_isFixedArray inTable isFixedArray found hasLength
      refine ⟨?_, ⟨_, isSize⟩⟩
      by_cases empty : length = 0
      · simp [isSize, empty, exactArraySpan]
      · have := @exactArraySpan_nonneg length _ (positive (by omega))
        omega

/-- Sizes of values in their own slots are not negative. -/
theorem size_nonneg
    (shaped : layout.Readable)
    (inTable : type ∈ layout.types)
    (isInPlace : type.encoding = .inplace) :
    0 ≤ type.size := by
  cases isScalar : type.isScalar with
  | true =>
      exact (shaped.notEmpty type inTable isScalar).le
  | false =>
      exact (shaped.dvd_size inTable isInPlace isScalar).1

end Layout.Readable

section Elements

variable {index length size : Int}

theorem exactPlace_firstByte_nonneg
    (positive : 0 < size)
    (nonneg : 0 ≤ index) :
    0 ≤ (exactPlace index size).firstByte := by
  have slot := exactPlace_slot_nonneg nonneg positive
  have offset := @exactPlace_offset_nonneg index size positive
  simp only [ElementPlace.firstByte]
  omega

/-- An element ends where its array ends, or before. -/
theorem exactPlace_firstByte_add_le
    (positive : 0 < size)
    (nonneg : 0 ≤ index)
    (inside : index < length) :
    (exactPlace index size).firstByte + size ≤
      32 * exactArraySpan length size := by
  have slots := exactPlace_slot_add_le positive nonneg inside
  have inSlots :
      (exactPlace index size).offset + size ≤ 32 * exactSpan size := by
    have span := exactSpan_pos positive
    by_cases small : size ≤ slotSize
    · have inSlot := @exactPlace_offset_add_le index size positive small
      simp only [slotSize] at inSlot
      omega
    · simp only [exactPlace, if_neg small, exactSpan]
      omega
  simp only [ElementPlace.firstByte]
  omega

end Elements

namespace ValueTree

variable {layout : Layout} {type : TypeEntry}

/-- The bytes of a value lie within the size of its type. -/
theorem within_of_covers
    (shaped : layout.Readable)
    (inTable : type ∈ layout.types)
    (tree : ValueTree layout type)
    {start address : Int}
    {leaf : Leaf}
    (isLeaf : leaf ∈ tree.leaves start)
    (covers : leaf.Covers address) :
    start ≤ address ∧ address < start + type.size := by
  induction tree generalizing start with
  | scalar isScalar stored =>
      have positive := shaped.notEmpty _ inTable isScalar
      cases List.mem_singleton.mp isLeaf
      simp only [Leaf.Covers, stored.length_content] at covers
      omega
  | @struct type members memberType isInPlace hasMembers found parts
    inductionHypothesis =>
      have packed := shaped.structs type inTable isInPlace members hasMembers
      obtain ⟨place, _, isLeaf⟩ := List.mem_flatMap.mp isLeaf
      have isMember : members[place] ∈ members :=
        List.getElem_mem _
      have memberInTable := Layout.mem_types_of_lookup (found place)
      obtain ⟨above, below⟩ := inductionHypothesis place memberInTable isLeaf
      have slot := packed.nonneg _ isMember
      obtain ⟨_, _, offset, _⟩ := packed.fits _ isMember
      have inside := packed.inside _ isMember _ (found place)
      simp only [Variable.firstByte] at above below inside
      omega
  | @array type element length isFixedArray hasLength found inPlace parts
    inductionHypothesis =>
      obtain ⟨isSize, sized⟩ :=
        shaped.size_of_isFixedArray inTable isFixedArray found hasLength
      obtain ⟨index, _, isLeaf⟩ := List.mem_flatMap.mp isLeaf
      have positive := sized (Fin.pos index)
      have elementInTable := Layout.mem_types_of_lookup found
      obtain ⟨above, below⟩ := inductionHypothesis index elementInTable isLeaf
      have first :=
        exactPlace_firstByte_nonneg positive (Int.natCast_nonneg index.val)
      have last :=
        exactPlace_firstByte_add_le positive (Int.natCast_nonneg index.val)
          (Int.ofNat_lt.mpr index.isLt)
      omega

/-- The bytes of different scalars in a value never overlap. -/
theorem leaves_apart
    (shaped : layout.Readable)
    (inTable : type ∈ layout.types)
    (tree : ValueTree layout type)
    (start : Int) :
    (tree.leaves start).Pairwise Leaf.Apart := by
  induction tree generalizing start with
  | scalar isScalar stored =>
      exact List.pairwise_singleton _ _
  | @struct type members memberType isInPlace hasMembers found parts
    inductionHypothesis =>
      have packed := shaped.structs type inTable isInPlace members hasMembers
      have membersInTable (place : Fin members.length) :=
        Layout.mem_types_of_lookup (found place)
      refine List.pairwise_flatMap.mpr ⟨?_, ?_⟩
      · intro place _
        exact inductionHypothesis place (membersInTable place) _
      · apply (List.pairwise_lt_finRange _).imp
        intro earlier later order first isFirst second isSecond address
          inFirst inSecond
        have apart :=
          List.pairwise_iff_getElem.mp packed.apart earlier later earlier.isLt
            later.isLt order
            _ (found earlier) _ (found later)
        have firstWithin :=
          within_of_covers shaped (membersInTable earlier)
            (parts earlier) isFirst inFirst
        have secondWithin :=
          within_of_covers shaped (membersInTable later)
            (parts later) isSecond inSecond
        apply apart (address - start)
        · simp only [Fin.getElem_fin] at firstWithin ⊢
          omega
        · simp only [Fin.getElem_fin] at secondWithin ⊢
          omega
  | @array type element length isFixedArray hasLength found inPlace parts
    inductionHypothesis =>
      obtain ⟨_, sized⟩ :=
        shaped.size_of_isFixedArray inTable isFixedArray found hasLength
      have elementInTable := Layout.mem_types_of_lookup found
      refine List.pairwise_flatMap.mpr ⟨?_, ?_⟩
      · intro index _
        exact inductionHypothesis index elementInTable _
      · apply (List.pairwise_lt_finRange _).imp
        intro earlier later order first isFirst second isSecond address
          inFirst inSecond
        have positive := sized (Fin.pos earlier)
        have inOrder :=
          exactPlace_end_le positive (Int.ofNat_lt.mpr order)
        have firstWithin :=
          within_of_covers shaped elementInTable (parts earlier) isFirst inFirst
        have secondWithin :=
          within_of_covers shaped elementInTable (parts later) isSecond inSecond
        simp only [ElementPlace.firstByte] at firstWithin secondWithin
        omega

end ValueTree

end EvmStorage
