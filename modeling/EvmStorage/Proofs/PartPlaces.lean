import EvmStorage.Proofs.RoundTrip

namespace EvmStorage

/-!
# Places of nested parts

Steps to members of structs and to elements of fixed arrays stay within the
bytes of the value at which they start.  Steps that name different parts lead
to different bytes, however deep the parts are nested, and also if the value
goes on in the first slot behind the last one.
-/

namespace Position

/-- An index that is read is not negative. -/
theorem nonneg_of_readIndex
    {index : Value}
    {number : Int}
    (isIndex : readIndex index = .ok number) :
    0 ≤ number := by
  simp only [readIndex] at isIndex
  obtain ⟨found, _, isNumber⟩ := Outcome.bind_eq_ok_iff.mp isIndex
  split at isNumber
  · cases isNumber
  · cases isNumber
    omega

/-- Integers that are not negative are indexes, and are read as they are. -/
theorem readIndex_int_eq_ok_iff
    {given number : Int} :
    readIndex (.int given) = .ok number ↔ 0 ≤ given ∧ given = number := by
  simp only [readIndex, Except.bind]
  split
  · simp
    omega
  · simp
    omega

end Position

/-- A part of a struct or of a fixed array. -/
inductive ValuePart where
  | member (entry : Variable)
  | element (index : Int)
  deriving DecidableEq

/-- The step that names a part by its own label or index. -/
def ValuePart.step : ValuePart → Step
  | .member entry => .field entry.label
  | .element index => .index (.int index)

/-- Whether a step names a member by a text, or an element by an integer. -/
def Step.isPlain : Step → Bool
  | .field (.text _) => true
  | .index (.int _) => true
  | _ => false

/-- Whether a step names a part of the values of a type. -/
inductive TypeEntry.Names (type : TypeEntry) : Step → ValuePart → Prop where
  | member
      {name : Value}
      {entry : Variable}
      (found : type.member name = .ok entry) :
      Names type (.field name) (.member entry)
  | element
      {index : Value}
      {number : Int}
      (isFixedArray : type.isFixedArray)
      (isIndex : Position.readIndex index = .ok number) :
      Names type (.index index) (.element number)

/-- A plain step names a part by its own label or index. -/
theorem TypeEntry.Names.step_eq
    {type : TypeEntry}
    {step : Step}
    {part : ValuePart}
    (names : type.Names step part)
    (isPlain : step.isPlain) :
    part.step = step := by
  cases names with
  | @member name entry found =>
      obtain ⟨label, rfl⟩ : ∃ label, name = .text label := by
        cases name <;> simp_all [Step.isPlain]
      simp only [TypeEntry.member] at found
      split at found
      · cases found
      · split at found
        · next isEntry =>
            cases found
            have isLabel : entry.label.equals (.text label) = true := by
              simpa using List.find?_some isEntry
            rw [ValuePart.step, Value.equals_text_iff.mp isLabel]
        · cases found
  | @element index number isFixedArray isIndex =>
      obtain ⟨given, rfl⟩ : ∃ given, index = .int given := by
        cases index <;> simp_all [Step.isPlain]
      rw [ValuePart.step, (Position.readIndex_int_eq_ok_iff.mp isIndex).2]

/--
Steps that lead through structs and fixed arrays, and the parts that they name.
-/
inductive Position.Descends
    (hash : Digest)
    (layout : Layout) :
    Position → List Step → List ValuePart → Position → Prop where
  | here
      (position : Position) :
      Descends hash layout position [] [] position
  | step
      {position next last : Position}
      {type : TypeEntry}
      {step : Step}
      {part : ValuePart}
      {steps : List Step}
      {parts : List ValuePart}
      (onType : layout.lookup position.type = .ok type)
      (names : type.Names step part)
      (stepped : position.step hash layout step = .ok next)
      (rest : Descends hash layout next steps parts last) :
      Descends hash layout position (step :: steps) (part :: parts) last

/-- Plain steps name parts by their own labels and indexes. -/
theorem Position.Descends.steps_eq
    {hash : Digest}
    {layout : Layout}
    {start last : Position}
    {steps : List Step}
    {parts : List ValuePart}
    (descends : start.Descends hash layout steps parts last)
    (arePlain : ∀ step ∈ steps, step.isPlain) :
    parts.map ValuePart.step = steps := by
  induction descends with
  | here position =>
      rfl
  | step onType names stepped rest inductionHypothesis =>
      obtain ⟨isPlain, restPlain⟩ := List.forall_mem_cons.mp arePlain
      rw [List.map_cons, names.step_eq isPlain, inductionHypothesis restPlain]

/-- The number of bytes in all slots. -/
def storageSize : Int :=
  32 * slotModulus

/--
The first byte of a position, counted from the first byte of the first slot.
-/
def Position.firstByte (position : Position) : Int :=
  32 * position.slot + position.offset

/--
Whether a byte belongs to a value of a size at a position, with slots counted
modulo their number.
-/
def Position.Covers
    (position : Position)
    (size address : Int) :
    Prop :=
  ∃ distance,
    0 ≤ distance ∧ distance < size ∧
      address = (position.firstByte + distance) % storageSize

/-- Whether all bytes of one value belong to another one. -/
def Position.LiesWithin
    (position : Position)
    (size : Int)
    (other : Position)
    (otherSize : Int) :
    Prop :=
  ∀ address, position.Covers size address → other.Covers otherSize address

/-- Whether no byte of one value belongs to another one. -/
def Position.LiesApartFrom
    (position : Position)
    (size : Int)
    (other : Position)
    (otherSize : Int) :
    Prop :=
  ∀ address, position.Covers size address → ¬ other.Covers otherSize address

/--
Whether structs and fixed arrays have sizes, and parts that lie within them and
apart.
-/
structure Layout.Partitioned (layout : Layout) : Prop extends
    layout.InPlaceShaped where
  sizes : ∀ type ∈ layout.types, type.WellSized
  noMembers : ∀ type ∈ layout.types,
    type.encoding ≠ .inplace → type.members = none

/-- The members of every struct have places of their own. -/
theorem Layout.Partitioned.wellPacked
    {layout : Layout}
    {type : TypeEntry}
    {members : List Variable}
    (shaped : layout.Partitioned)
    (inTable : type ∈ layout.types)
    (hasMembers : type.members = some members) :
    layout.WellPacked type members := by
  apply shaped.structs type inTable _ members hasMembers
  by_contra elsewhere
  rw [shaped.noMembers type inTable elsewhere] at hasMembers
  cases hasMembers

/-- Different members of one struct have no byte in common. -/
theorem Layout.WellPacked.rangesApart
    {layout : Layout}
    {type firstType secondType : TypeEntry}
    {members : List Variable}
    {first second : Variable}
    (packed : layout.WellPacked type members)
    (isFirst : first ∈ members)
    (isSecond : second ∈ members)
    (differ : first ≠ second)
    (onFirst : layout.lookup first.type = .ok firstType)
    (onSecond : layout.lookup second.type = .ok secondType) :
    RangesApart first.firstByte firstType.size second.firstByte
      secondType.size := by
  obtain ⟨place, inFront, rfl⟩ := List.getElem_of_mem isFirst
  obtain ⟨otherPlace, otherInFront, rfl⟩ := List.getElem_of_mem isSecond
  have inOrder := List.pairwise_iff_getElem.mp packed.apart
  rcases lt_trichotomy place otherPlace with before | same | behind
  · exact inOrder _ _ inFront otherInFront before _ onFirst _ onSecond
  · subst same
    exact absurd rfl differ
  · intro address inFirst inSecond
    exact inOrder _ _ otherInFront inFront behind _ onSecond _ onFirst address
      inSecond inFirst

/-- Where a part of the values of a type starts, and what its type is. -/
inductive Layout.HasPart
    (layout : Layout)
    (type : TypeEntry) :
    ValuePart → Int → TypeEntry → Prop where
  | member
      {members : List Variable}
      {entry : Variable}
      {memberType : TypeEntry}
      (hasMembers : type.members = some members)
      (isMember : entry ∈ members)
      (found : layout.lookup entry.type = .ok memberType) :
      HasPart layout type (.member entry) entry.firstByte memberType
  | element
      {elementType : TypeEntry}
      {length : Nat}
      {index : Int}
      (isFixedArray : type.isFixedArray)
      (found : layout.elementOf type = .ok elementType)
      (hasLength : type.HasLength length)
      (nonneg : 0 ≤ index)
      (inside : index < length) :
      HasPart layout type (.element index)
        (exactPlace index elementType.size).firstByte elementType

namespace Layout.HasPart

variable {layout : Layout} {type partType firstType secondType : TypeEntry}
  {part first second : ValuePart} {place firstPlace secondPlace : Int}

theorem mem_types
    (isPart : layout.HasPart type part place partType) :
    partType ∈ layout.types := by
  cases isPart with
  | member hasMembers isMember found =>
      exact mem_types_of_lookup found
  | element isFixedArray found hasLength nonneg inside =>
      exact mem_types_of_lookup found

/-- A part has one place and one type. -/
theorem unique
    (isFirst : layout.HasPart type part firstPlace firstType)
    (isSecond : layout.HasPart type part secondPlace secondType) :
    firstPlace = secondPlace ∧ firstType = secondType := by
  cases isFirst with
  | member hasMembers isMember found =>
      cases isSecond with
      | member hasSecond isSecondMember foundSecond =>
          cases found.symm.trans foundSecond
          exact ⟨rfl, rfl⟩
  | element isFixedArray found hasLength nonneg inside =>
      cases isSecond with
      | element isSecondArray foundSecond hasSecondLength secondNonneg
        secondInside =>
          cases found.symm.trans foundSecond
          exact ⟨rfl, rfl⟩

/-- A part lies within its whole. -/
theorem within
    (shaped : layout.Partitioned)
    (inTable : type ∈ layout.types)
    (isPart : layout.HasPart type part place partType) :
    0 ≤ place ∧ place + partType.size ≤ type.size := by
  cases isPart with
  | @member members entry _ hasMembers isMember found =>
      have packed := shaped.wellPacked inTable hasMembers
      have slot := packed.nonneg entry isMember
      obtain ⟨_, _, offset, _⟩ := packed.fits entry isMember
      have ends := packed.inside entry isMember _ found
      simp only [Variable.firstByte] at ends ⊢
      omega
  | element isFixedArray found hasLength nonneg inside =>
      obtain ⟨isSize, sized⟩ :=
        shaped.size_of_isFixedArray inTable isFixedArray found hasLength
      have positive := sized (by omega)
      rw [isSize]
      exact ⟨exactPlace_firstByte_nonneg positive nonneg,
        exactPlace_firstByte_add_le positive nonneg inside⟩

/-- Different parts of one whole have no byte in common. -/
theorem apart
    (shaped : layout.Partitioned)
    (inTable : type ∈ layout.types)
    (isFirst : layout.HasPart type first firstPlace firstType)
    (isSecond : layout.HasPart type second secondPlace secondType)
    (differ : first ≠ second) :
    RangesApart firstPlace firstType.size secondPlace secondType.size := by
  cases isFirst with
  | @member members entry _ hasMembers isMember found =>
      have packed := shaped.wellPacked inTable hasMembers
      cases isSecond with
      | @member _ other _ hasSecond isOther foundOther =>
          cases hasMembers.symm.trans hasSecond
          exact packed.rangesApart isMember isOther
            (fun same => differ (congrArg _ same)) found foundOther
      | element isFixedArray =>
          have noMembers := shaped.isStruct_of_isFixedArray inTable isFixedArray
          simp [TypeEntry.isStruct, hasMembers] at noMembers
  | @element elementType length index isFixedArray found hasLength
    nonneg inside =>
      obtain ⟨_, sized⟩ :=
        shaped.size_of_isFixedArray inTable isFixedArray found hasLength
      have positive := sized (by omega)
      cases isSecond with
      | member hasMembers =>
          have noMembers := shaped.isStruct_of_isFixedArray inTable isFixedArray
          simp [TypeEntry.isStruct, hasMembers] at noMembers
      | @element _ _ other _ foundOther _ otherNonneg otherInside =>
          cases found.symm.trans foundOther
          intro address inFirst inSecond
          simp only [ElementPlace.firstByte] at inFirst inSecond
          rcases lt_trichotomy index other with before | same | behind
          · have inOrder := exactPlace_end_le positive before
            omega
          · exact differ (congrArg _ same)
          · have inOrder := exactPlace_end_le positive behind
            omega

end Layout.HasPart

/-- Where a part of a part, and so on, starts, and what its type is. -/
inductive Layout.HasNested
    (layout : Layout) :
    TypeEntry → List ValuePart → Int → TypeEntry → Prop where
  | whole
      (type : TypeEntry) :
      HasNested layout type [] 0 type
  | part
      {type partType nestedType : TypeEntry}
      {part : ValuePart}
      {parts : List ValuePart}
      {place further : Int}
      (isPart : layout.HasPart type part place partType)
      (nested : HasNested layout partType parts further nestedType) :
      HasNested layout type (part :: parts) (place + further) nestedType

namespace Layout.HasNested

variable {layout : Layout} {type nestedType firstType secondType : TypeEntry}
  {parts firstParts secondParts : List ValuePart}
  {place firstPlace secondPlace : Int}

/-- A nested part lies within its whole. -/
theorem within
    (shaped : layout.Partitioned)
    (inTable : type ∈ layout.types)
    (nested : layout.HasNested type parts place nestedType) :
    0 ≤ place ∧ place + nestedType.size ≤ type.size := by
  induction nested with
  | whole type =>
      omega
  | part isPart nested inductionHypothesis =>
      obtain ⟨starts, ends⟩ := isPart.within shaped inTable
      obtain ⟨startsInPart, endsInPart⟩ := inductionHypothesis isPart.mem_types
      omega

/--
Nested parts neither of which is a part of the other one have no byte in
common.
-/
theorem apart
    (shaped : layout.Partitioned)
    (inTable : type ∈ layout.types)
    (isFirst : layout.HasNested type firstParts firstPlace firstType)
    (isSecond : layout.HasNested type secondParts secondPlace secondType)
    (notOutside : ¬ firstParts <+: secondParts)
    (notInside : ¬ secondParts <+: firstParts) :
    RangesApart firstPlace firstType.size secondPlace secondType.size := by
  induction isFirst generalizing secondParts secondPlace secondType with
  | whole type =>
      exact absurd List.nil_prefix notOutside
  | @part type partType _ part parts place further isPart nested
    inductionHypothesis =>
      cases isSecond with
      | whole =>
          exact absurd List.nil_prefix notInside
      | @part _ otherType _ other others otherPlace otherFurther isOther
        otherNested =>
          by_cases same : part = other
          · subst same
            obtain ⟨rfl, rfl⟩ := isPart.unique isOther
            rw [List.prefix_cons_inj] at notOutside notInside
            have apartInPart :=
              inductionHypothesis isPart.mem_types otherNested
                notOutside notInside
            intro address inFirst inSecond
            exact apartInPart (address - place) (by omega) (by omega)
          · have partsApart := isPart.apart shaped inTable isOther same
            obtain ⟨starts, ends⟩ := nested.within shaped isPart.mem_types
            obtain ⟨otherStarts, otherEnds⟩ :=
              otherNested.within shaped isOther.mem_types
            intro address inFirst inSecond
            exact partsApart address (by omega) (by omega)

end Layout.HasNested

namespace Position

/--
Whether a position lies so many bytes behind another one, with slots counted
modulo their number.
-/
def LiesBehind
    (position start : Position)
    (distance : Int) :
    Prop :=
  position.firstByte % storageSize = (start.firstByte + distance) % storageSize

variable {hash : Digest} {layout : Layout} {start position next last : Position}
  {type partType : TypeEntry} {step : Step} {part : ValuePart}
  {distance further : Int}

/-- Distances of positions add up. -/
theorem LiesBehind.trans
    (behindPosition : last.LiesBehind position further)
    (behindStart : position.LiesBehind start distance) :
    last.LiesBehind start (distance + further) := by
  calc
    last.firstByte % storageSize
        = (position.firstByte + further) % storageSize := behindPosition
    _ = (start.firstByte + distance + further) % storageSize := by
      rw [Int.add_emod,
        show position.firstByte % storageSize = _ from behindStart,
        ← Int.add_emod]
    _ = (start.firstByte + (distance + further)) % storageSize := by
      rw [add_assoc]

/-- A value covers the bytes from its distance on. -/
theorem LiesBehind.covers_iff
    {size address : Int}
    (behind : position.LiesBehind start distance) :
    position.Covers size address ↔
      ∃ place,
        distance ≤ place ∧ place < distance + size ∧
          address = (start.firstByte + place) % storageSize := by
  have isSame (place : Int) :
      (position.firstByte + place) % storageSize =
        (start.firstByte + (distance + place)) % storageSize := by
    rw [Int.add_emod, show position.firstByte % storageSize = _ from behind,
      ← Int.add_emod, add_assoc]
  constructor
  · rintro ⟨place, above, below, isAddress⟩
    exact ⟨distance + place, by omega, by omega, by rw [isAddress, isSame]⟩
  · rintro ⟨place, above, below, isAddress⟩
    exact ⟨place - distance, by omega, by omega,
      by rw [isAddress, isSame, add_sub_cancel]⟩

/-- What starts and ends between two ends of a value lies within it. -/
theorem LiesBehind.liesWithin
    {size wholeSize : Int}
    (behind : position.LiesBehind start distance)
    (starts : 0 ≤ distance)
    (ends : distance + size ≤ wholeSize) :
    position.LiesWithin size start wholeSize := by
  intro address covers
  obtain ⟨place, above, below, isAddress⟩ := behind.covers_iff.mp covers
  exact ⟨place, by omega, by omega, isAddress⟩

/-- Values whose bytes behind one start are different ones lie apart. -/
theorem LiesBehind.liesApartFrom
    {size otherSize : Int}
    (behind : position.LiesBehind start distance)
    (otherBehind : next.LiesBehind start further)
    (apart : RangesApart distance size further otherSize)
    (starts : 0 ≤ distance)
    (otherStarts : 0 ≤ further)
    (ends : distance + size ≤ storageSize)
    (otherEnds : further + otherSize ≤ storageSize) :
    position.LiesApartFrom size next otherSize := by
  intro address covers otherCovers
  obtain ⟨place, above, below, isAddress⟩ := behind.covers_iff.mp covers
  obtain ⟨otherPlace, otherAbove, otherBelow, isOtherAddress⟩ :=
    otherBehind.covers_iff.mp otherCovers
  have samePlace : place = otherPlace := by
    simp only [storageSize, slotModulus_eq] at *
    omega
  subst samePlace
  exact apart place ⟨above, below⟩ ⟨otherAbove, otherBelow⟩

/-- A position in another slot lies behind by the bytes of the slots between. -/
theorem liesBehind_of_slot
    {slot offset : Int}
    (atStart : position.offset = 0)
    (isSlot : next.slot = (position.slot + slot) % slotModulus)
    (isOffset : next.offset = offset) :
    next.LiesBehind position (32 * slot + offset) := by
  simp only [LiesBehind, firstByte, isSlot, isOffset, atStart, storageSize,
    slotModulus_eq]
  omega

/-- A step to a member leads to the place of the member. -/
theorem hasPart_of_member
    {name : Value}
    {entry : Variable}
    (shaped : layout.Partitioned)
    (inTable : type ∈ layout.types)
    (fits : type.FitsAt position.offset)
    (found : type.member name = .ok entry)
    (stepped : position.stepWithin hash layout type (.field name) = .ok next) :
    ∃ place partType,
      layout.HasPart type (.member entry) place partType ∧
        layout.lookup next.type = .ok partType ∧
        partType.FitsAt next.offset ∧
        next.LiesBehind position place := by
  simp only [stepWithin] at stepped
  split at stepped
  · next isStruct =>
      obtain ⟨members, hasMembers⟩ := TypeEntry.isStruct_iff.mp isStruct
      have isMember : entry ∈ members := by
        simpa [hasMembers] using TypeEntry.mem_members_of_member found
      obtain ⟨memberType, onMember, memberFits⟩ :=
        (shaped.wellPacked inTable hasMembers).fits entry isMember
      have atStart : position.offset = 0 := by
        simpa [TypeEntry.isScalar_of_isStruct isStruct] using fits.2
      simp only [Position.member, found, Outcome.ok_bind, Outcome.pure_eq_ok,
        Except.ok.injEq] at stepped
      subst stepped
      exact ⟨_, memberType, .member hasMembers isMember onMember, onMember,
        memberFits, liesBehind_of_slot atStart rfl rfl⟩
  · cases stepped

/-- A step to an element leads to the place of the element. -/
theorem hasPart_of_element
    {index : Value}
    {number : Int}
    (shaped : layout.Partitioned)
    (inTable : type ∈ layout.types)
    (fits : type.FitsAt position.offset)
    (isFixedArray : type.isFixedArray)
    (isIndex : readIndex index = .ok number)
    (stepped : position.stepWithin hash layout type (.index index) = .ok next) :
    ∃ place partType,
      layout.HasPart type (.element number) place partType ∧
        layout.lookup next.type = .ok partType ∧
        partType.FitsAt next.offset ∧
        next.LiesBehind position place := by
  have isArray : type.isArray := by
    simp [TypeEntry.isArray, isFixedArray]
  have notDynamic : type.isDynamicArray = false := by
    simp [TypeEntry.isDynamicArray,
      (TypeEntry.isFixedArray_iff.mp isFixedArray).1]
  obtain ⟨elementType, length, _, onElement, hasLength, _, _⟩ :=
    shaped.arrays type inTable isFixedArray
  have isLength :=
    shaped.fixedLength_eq inTable isFixedArray onElement hasLength
  have onBase : layout.lookup (type.base.getD .null) = .ok elementType :=
    onElement
  have nonneg := nonneg_of_readIndex isIndex
  simp only [stepWithin, isArray, ↓reduceIte, Position.element, isIndex,
    Layout.sizeOf, onBase, elementsStart, notDynamic, Bool.false_eq_true,
    isLength, Outcome.ok_bind, Outcome.pure_eq_ok] at stepped
  split at stepped
  · cases stepped
  · next inside =>
      obtain ⟨_, sized⟩ :=
        shaped.size_of_isFixedArray inTable isFixedArray onElement hasLength
      have positive := sized (by omega)
      have elementInTable := Layout.mem_types_of_lookup onElement
      have wellSized := shaped.sizes elementType elementInTable
      have atStart : position.offset = 0 := by
        simpa [TypeEntry.isScalar_of_isFixedArray isFixedArray] using fits.2
      simp only [Outcome.ok_bind, elementPlace_eq nonneg positive
        (shaped.bounded elementType elementInTable), Except.ok.injEq] at stepped
      subst stepped
      exact ⟨_, elementType,
        .element isFixedArray onElement hasLength nonneg (by omega), onBase,
        TypeEntry.fitsAt_exactPlace positive (fun isScalar =>
          (wellSized.scalar isScalar).2)
          wellSized.dvd_of_not_isScalar,
        liesBehind_of_slot atStart rfl rfl⟩

/-- A step to a part leads to the place of the part. -/
theorem hasPart_of_step
    (shaped : layout.Partitioned)
    (onType : layout.lookup position.type = .ok type)
    (fits : type.FitsAt position.offset)
    (names : type.Names step part)
    (stepped : position.step hash layout step = .ok next) :
    ∃ place partType,
      layout.HasPart type part place partType ∧
        layout.lookup next.type = .ok partType ∧
        partType.FitsAt next.offset ∧
        next.LiesBehind position place := by
  have inTable := Layout.mem_types_of_lookup onType
  simp only [Position.step, onType, Outcome.ok_bind] at stepped
  cases names with
  | member found =>
      exact hasPart_of_member shaped inTable fits found stepped
  | element isFixedArray isIndex =>
      exact hasPart_of_element shaped inTable fits isFixedArray isIndex stepped

/-- Steps to a nested part lead to its place. -/
theorem hasNested_of_descends
    {steps : List Step}
    {parts : List ValuePart}
    (shaped : layout.Partitioned)
    (onType : layout.lookup position.type = .ok type)
    (fits : type.FitsAt position.offset)
    (descends : position.Descends hash layout steps parts last) :
    ∃ place lastType,
      layout.HasNested type parts place lastType ∧
        layout.lookup last.type = .ok lastType ∧
        last.LiesBehind position place := by
  induction descends generalizing type with
  | here position =>
      exact ⟨0, type, .whole type, onType, by rw [LiesBehind, add_zero]⟩
  | step onFound names stepped rest inductionHypothesis =>
      cases onType.symm.trans onFound
      obtain ⟨place, partType, isPart, onPart, partFits, behind⟩ :=
        hasPart_of_step shaped onType fits names stepped
      obtain ⟨further, lastType, nested, onLast, lastBehind⟩ :=
        inductionHypothesis onPart partFits
      exact ⟨place + further, lastType, .part isPart nested, onLast,
        lastBehind.trans behind⟩

/--
Steps from a struct or a fixed array stay within its bytes, and lead to
different bytes unless the parts that the ones name begin with the parts that
the others name.

The parts are named by members and by indexes, so it does not matter how an
index is written. For plain steps the steps can be compared themselves.
-/
theorem liesApartFrom_of_descends
    {first second : Position}
    {firstSteps secondSteps : List Step}
    {firstParts secondParts : List ValuePart}
    (shaped : layout.Partitioned)
    (onType : layout.lookup start.type = .ok type)
    (atStart : start.offset = 0)
    (toFirst : start.Descends hash layout firstSteps firstParts first)
    (toSecond : start.Descends hash layout secondSteps secondParts second) :
    ∃ firstType secondType,
      layout.lookup first.type = .ok firstType ∧
        layout.lookup second.type = .ok secondType ∧
        first.LiesWithin firstType.size start type.size ∧
        second.LiesWithin secondType.size start type.size ∧
        (¬ firstParts <+: secondParts ∧ ¬ secondParts <+: firstParts →
          first.LiesApartFrom firstType.size second secondType.size) ∧
        ((∀ step ∈ firstSteps ++ secondSteps, step.isPlain) →
          ¬ firstSteps <+: secondSteps ∧ ¬ secondSteps <+: firstSteps →
          first.LiesApartFrom firstType.size second secondType.size) := by
  have inTable := Layout.mem_types_of_lookup onType
  have bounded := shaped.bounded type inTable
  have fewBytes : greatestExactSize ≤ storageSize := by
    decide
  have fits : type.FitsAt start.offset := by
    rw [atStart]
    exact (shaped.sizes type inTable).fitsAt_zero
  obtain ⟨firstPlace, firstType, isFirst, onFirst, firstBehind⟩ :=
    hasNested_of_descends shaped onType fits toFirst
  obtain ⟨secondPlace, secondType, isSecond, onSecond, secondBehind⟩ :=
    hasNested_of_descends shaped onType fits toSecond
  have firstWithin := isFirst.within shaped inTable
  have secondWithin := isSecond.within shaped inTable
  have apart :
      ¬ firstParts <+: secondParts ∧ ¬ secondParts <+: firstParts →
        first.LiesApartFrom firstType.size second secondType.size := by
    rintro ⟨notOutside, notInside⟩
    exact firstBehind.liesApartFrom secondBehind
      (isFirst.apart shaped inTable isSecond notOutside notInside)
      (by omega) (by omega) (by omega) (by omega)
  refine ⟨firstType, secondType, onFirst, onSecond, ?_, ?_, apart, ?_⟩
  · exact firstBehind.liesWithin firstWithin.1 firstWithin.2
  · exact secondBehind.liesWithin secondWithin.1 secondWithin.2
  · rintro arePlain ⟨notOutside, notInside⟩
    rw [List.forall_mem_append] at arePlain
    rw [← toFirst.steps_eq arePlain.1, ← toSecond.steps_eq arePlain.2]
      at notOutside notInside
    exact apart
      ⟨fun isFront => notOutside (isFront.map _),
        fun isFront => notInside (isFront.map _)⟩

end Position

namespace Contract

/-- The parts of the values of the layout have places of their own. -/
theorem partitioned_trades : trades.layout.Partitioned where
  toInPlaceShaped := readable_trades.toInPlaceShaped
  sizes := by decide +kernel
  noMembers := by decide +kernel

/-- The position of one of the integers of the struct at the last slot. -/
def deltaPosition (index : Int) : Position where
  slot := 0
  offset := 2 * index
  type := .text "delta"
  address := "0x00"
  block := .text "latest"

/--
Two integers of a struct at the last slot lie in the first slot, and apart from
each other.
-/
theorem deltas_lieApart :
    (deltaPosition 1).LiesWithin 2 tradeCursor.position 64 ∧
      (deltaPosition 2).LiesWithin 2 tradeCursor.position 64 ∧
      (deltaPosition 1).LiesApartFrom 2 (deltaPosition 2) 2 := by
  have toFirst :
      tradeCursor.position.Descends Keccak.digest trades.layout
        [.field (.text "deltas"), .index (.int 1)]
        [.member tradeMembers[2], .element 1]
        (deltaPosition 1) :=
    .step rfl (.member rfl) rfl (.step rfl (.element rfl rfl)
        (Outcome.eq_ok_of_toOption (by decide +kernel)) (.here _))
  have toSecond :
      tradeCursor.position.Descends Keccak.digest trades.layout
        [.field (.text "deltas"), .index (.text "2")]
        [.member tradeMembers[2], .element 2]
        (deltaPosition 2) :=
    .step rfl (.member rfl) rfl (.step rfl (.element rfl rfl)
        (Outcome.eq_ok_of_toOption (by decide +kernel)) (.here _))
  obtain ⟨firstType, secondType, onFirst, onSecond, firstWithin, secondWithin,
      apart, _⟩ :=
    Position.liesApartFrom_of_descends partitioned_trades rfl rfl
      toFirst toSecond
  cases onFirst
  cases onSecond
  exact ⟨firstWithin, secondWithin, apart (by decide)⟩

end Contract

end EvmStorage
