import EvmStorage.Proofs.InPlace
import EvmStorage.Proofs.ValueTree

namespace EvmStorage

/-!
# What can be decoded

In a layout of the shape that compilers give to layouts every value that lies
in its own slots can be decoded, whatever is stored there: no window leaves its
slot, no member its struct and no element its array, and every label says how
the bytes are read.
-/

/-- The labels of scalars, with the sizes that belong to them. -/
inductive TypeEntry.HasScalarLabel (type : TypeEntry) : Prop where
  | flag
      (isLabel : type.label = .text "bool")
      (isByte : type.size = 1)
  | account
      (isLabel : TypeEntry.IsAccount type.label)
      (isAddress : type.size = 20)
  | choice
      (name : String)
      (isLabel : type.label = .text ("enum " ++ name))
  | integer
      (isUnsigned : Bool)
      (isLabel :
        type.label =
          .text (Label.ofWidth isUnsigned .int (8 * type.size.toNat)))
  | raw
      (isLabel :
        type.label = .text (Label.ofWidth false .bytes type.size.toNat))

/-- Whether all types of a layout are as compilers report them. -/
structure Layout.CompilerShaped (layout : Layout) : Prop extends
    layout.WellShaped where
  acyclic : layout.Acyclic
  noMembers : ∀ type ∈ layout.types,
    type.encoding ≠ .inplace → type.members = none
  bounded : ∀ type ∈ layout.types, type.size ≤ greatestExactSize
  scalars : ∀ type ∈ layout.types, type.isScalar → type.HasScalarLabel
  inside :
    ∀ type ∈ layout.types, ∀ member ∈ type.members.getD [],
      0 ≤ member.slot ∧
        ∀ memberType, layout.lookup member.type = .ok memberType →
          member.firstByte + memberType.size ≤ type.size
  fixedArrays :
    ∀ type ∈ layout.types, type.isFixedArray →
      ∃ element length span,
        layout.elementOf type = .ok element ∧
          type.HasLength length ∧
          arraySpan length element.size = .ok span ∧
          type.size = 32 * span
  dynamicArrays :
    ∀ type ∈ layout.types,
      type.isDynamicArray → layout.Defines (type.base.getD .null)

/--
Whether byte strings have texts as labels, and members can stand under theirs.
-/
structure Layout.Decodable (layout : Layout) : Prop extends
    layout.CompilerShaped where
  bytesLabels : ∀ type ∈ layout.types, type.isBytes → ∃ label,
    type.label = .text label
  memberLabels : ∀ type ∈ layout.types, ∀ member ∈ type.members.getD [],
    member.label.isLabel

namespace Layout.CompilerShaped

variable {layout : Layout} {type element : TypeEntry}

/-- Every type has a size. -/
theorem size_pos
    (shaped : layout.CompilerShaped)
    (inTable : type ∈ layout.types) :
    0 < type.size := by
  have wellSized := shaped.sizes type inTable
  by_cases isScalar : type.isScalar
  · exact (wellSized.scalar isScalar).1
  · by_cases isInPlace : type.encoding = .inplace
    · exact (wellSized.whole
        (TypeEntry.isStruct_or_isFixedArray isInPlace isScalar)).1
    · rw [wellSized.elsewhere isInPlace]
      decide

/--
The length of an array is read from its label, and its elements fill its slots.
-/
theorem size_of_isFixedArray
    (shaped : layout.CompilerShaped)
    (inTable : type ∈ layout.types)
    (isFixedArray : type.isFixedArray)
    (found : layout.elementOf type = .ok element) :
    ∃ length : Nat,
      type.fixedLength = .ok (length : Int) ∧
        type.size = 32 * exactArraySpan length element.size := by
  obtain ⟨other, length, span, isOther, hasLength, isSpan, isSize⟩ :=
    shaped.fixedArrays type inTable isFixedArray
  cases found.symm.trans isOther
  obtain ⟨isExact, sized⟩ :=
    eq_exactArraySpan
      (shaped.bounded element (mem_types_of_lookup found)) isSpan
  have slots : type.size = 32 * exactArraySpan length element.size := by
    rw [isSize, isExact]
  exact ⟨length,
    TypeEntry.fixedLength_of_size isFixedArray hasLength slots
      (fun notEmpty => sized (Int.natCast_pos.mpr notEmpty))
        (shaped.bounded type inTable),
    slots⟩

end Layout.CompilerShaped

/--
A part of a word that lies within the word has as many bytes as it should.
-/
theorem Word.exists_window
    {word : Bytes}
    {offset size : Int}
    (wholeWord : word.length = slotSize)
    (nonneg : 0 ≤ offset)
    (positive : 0 < size)
    (inSlot : offset + size ≤ slotSize) :
    ∃ data, window word offset size = .ok data ∧ data.length = size.toNat := by
  have inside : ¬ (offset < 0 ∨ size ≤ 0 ∨ offset + size > slotSize) := by
    omega
  refine ⟨_, by rw [window, if_neg (not_not.mpr wholeWord), if_neg inside], ?_⟩
  simp only [List.length_take, List.length_drop, wholeWord]
  omega

/-- Items between two positions are items of the list. -/
theorem mem_of_mem_between
    {items : List α}
    {start stop : Int}
    {item : α}
    (isBetween : item ∈ between items start stop) :
    item ∈ items :=
  List.mem_of_mem_take (List.mem_of_mem_drop isBetween)

/-- Every stored number of a width stands for an integer. -/
theorem TwosComplement.exists_decode
    {stored bits : Int}
    (positive : 0 < bits) :
    ∃ n, decode stored bits = .ok n := by
  rw [decode, if_neg (not_le_of_gt positive)]
  split <;> exact ⟨_, rfl⟩

namespace Decode

variable {hash : Digest} {layout : Layout} {type element : TypeEntry}
  {data : Bytes} {words : List Bytes}

/-- A scalar is decoded from any bytes that are as many as its type has. -/
theorem exists_scalar
    (hasLabel : type.HasScalarLabel)
    (isScalar : type.isScalar)
    (positive : 0 < type.size)
    (small : type.size ≤ 32)
    (wholeData : data.length = type.size.toNat) :
    ∃ value, scalar hash data type = .ok value := by
  cases hasLabel with
  | flag isLabel isByte =>
      exact ⟨_, by simp [scalar, isScalar, TypeEntry.labelText, isLabel]; rfl⟩
  | account isLabel isAddress =>
      exact ⟨_, scalar_of_isAccount isScalar isLabel
        (by rw [wholeData, isAddress]; rfl)⟩
  | choice name isLabel =>
      exact ⟨_, scalar_of_enum isScalar isLabel⟩
  | integer isUnsigned isLabel =>
      rw [scalar_ofWidth isScalar isLabel (Label.width_lt (by omega))]
      cases isUnsigned with
      | true =>
          exact ⟨_, rfl⟩
      | false =>
          obtain ⟨n, isNumber⟩ :=
            @TwosComplement.exists_decode (Bytes.toNat data)
              (8 * type.size.toNat : Nat) (by omega)
          exact ⟨.int n, by simp only [Label.DataKind.bits, isNumber]; rfl⟩
  | raw isLabel =>
      exact ⟨_, scalar_ofWidth isScalar isLabel (Label.width_lt (by omega))⟩

/-- Whether the values of a type lie elsewhere is known. -/
theorem exists_storedElsewhere
    (shaped : layout.CompilerShaped)
    (inTable : type ∈ layout.types) :
    ∃ elsewhere, storedElsewhere layout type = .ok elsewhere := by
  apply exists_storedElsewhere_of_acyclic shaped.acyclic _ inTable
  intro type inTable isFixedArray
  obtain ⟨element, _, _, found, _⟩ :=
    shaped.fixedArrays type inTable isFixedArray
  exact ⟨element, found⟩

/--
Whether the values of a type are decoded from any whole words that are enough
for them.
-/
def Decodes
    (hash : Digest)
    (layout : Layout)
    (type : TypeEntry) :
    Prop :=
  ∀ words offset,
    type.FitsAt offset →
    (∀ word ∈ words, word.length = slotSize) →
    exactSpan type.size ≤ words.length →
    ∃ found, value hash layout words offset type = .ok found

/-- A scalar is decoded from the first of its words. -/
theorem decodes_of_isScalar
    (shaped : layout.CompilerShaped)
    (inTable : type ∈ layout.types)
    (isScalar : type.isScalar) :
    Decodes hash layout type := by
  intro words offset fits wholeWords enough
  obtain ⟨positive, small⟩ := (shaped.sizes type inTable).scalar isScalar
  obtain ⟨nonneg, inSlot⟩ := fits
  rw [if_pos isScalar] at inSlot
  cases words with
  | nil =>
      have := exactSpan_pos positive
      simp only [List.length_nil] at enough
      omega
  | cons word rest =>
      obtain ⟨data, isData, wholeData⟩ :=
        Word.exists_window
          (wholeWords word List.mem_cons_self) nonneg positive inSlot
      rw [value_of_isScalar isScalar, isData]
      exact exists_scalar
        (shaped.scalars type inTable isScalar) isScalar positive small wholeData

/--
A member of a struct has a value in any words that are enough for the struct.
-/
private theorem exists_memberValue
    {member : Variable}
    {memberType : TypeEntry}
    (shaped : layout.Decodable)
    (inTable : type ∈ layout.types)
    (whole : 32 ∣ type.size)
    (isMember : member ∈ type.members.getD [])
    (found : layout.lookup member.type = .ok memberType)
    (inPlace : storedElsewhere layout memberType = .ok false)
    (decodes : Decodes hash layout memberType)
    (wholeWords : ∀ word ∈ words, word.length = slotSize)
    (enough : exactSpan type.size ≤ words.length) :
    ∃ value, IsMemberValue hash layout words member value := by
  obtain ⟨other, isOther, fits⟩ := shaped.members type inTable member isMember
  cases found.symm.trans isOther
  have memberInTable := Layout.mem_types_of_lookup found
  have positive := shaped.size_pos memberInTable
  obtain ⟨slotNonneg, inside⟩ := shaped.inside type inTable member isMember
  have insideSlots :
      member.slot + exactSpan memberType.size ≤ words.length := by
    have ends := inside memberType found
    obtain ⟨offsetNonneg, inSlot⟩ := fits
    simp only [Variable.firstByte] at ends
    simp only [exactSpan] at enough ⊢
    split at inSlot
    · next isScalar =>
        have := (shaped.sizes memberType memberInTable).scalar isScalar
        omega
    · omega
  have spanNonneg := exactSpan_nonneg positive.le
  have ownEnough :
      exactSpan memberType.size ≤
        (between words member.slot
          (member.slot + exactSpan memberType.size)).length := by
    rw [length_between slotNonneg (by omega)]
    omega
  obtain ⟨value, isValue⟩ :=
    decodes _ member.offset fits (fun word isIn =>
      wholeWords word (mem_of_mem_between isIn))
      ownEnough
  exact ⟨value, memberType, found, inPlace, ownEnough, isValue,
    shaped.memberLabels type inTable member isMember⟩

/-- A struct is decoded if the types of its own members are. -/
theorem decodes_of_isStruct
    (shaped : layout.Decodable)
    (inTable : type ∈ layout.types)
    (isStruct : type.isStruct)
    (ofParts :
      ∀ part,
        layout.IsPartOf part type →
        storedElsewhere layout part = .ok false →
        Decodes hash layout part) :
    Decodes hash layout type := by
  intro words offset _ wholeWords enough
  obtain ⟨members, hasMembers⟩ := TypeEntry.isStruct_iff.mp isStruct
  have whole := ((shaped.sizes type inTable).whole (.inl isStruct)).2
  suffices isDecoded : ∃ entries, struct hash layout words type = .ok entries by
    obtain ⟨entries, areEntries⟩ := isDecoded
    refine ⟨.struct entries, ?_⟩
    rw [value_of_isStruct shaped.acyclic inTable isStruct, areEntries]
    rfl
  simp only [struct, structWith, hasMembers]
  apply Outcome.exists_foldlM_eq_ok
  intro decoded member isMember
  have isMemberOf : member ∈ type.members.getD [] := by
    rwa [hasMembers]
  obtain ⟨memberType, found, _⟩ := shaped.members type inTable member isMemberOf
  have memberInTable := Layout.mem_types_of_lookup found
  have sized : layout.HasExactSize member.type := by
    intro other isOther
    cases found.symm.trans isOther
    exact ⟨(shaped.size_pos memberInTable).le,
      shaped.bounded memberType memberInTable⟩
  simp only [memberWith_eq_ok_iff sized]
  obtain ⟨elsewhere, isElsewhere⟩ :=
    exists_storedElsewhere shaped.toCompilerShaped memberInTable
  have elsewhere_iff := Layout.liesElsewhere_iff found
  cases elsewhere with
  | true =>
      exact ⟨decoded, by rw [if_pos (elsewhere_iff.mpr isElsewhere)]⟩
  | false =>
      have notElsewhere : ¬ layout.liesElsewhere member := by
        simp [elsewhere_iff, isElsewhere]
      have isPart := Layout.isPartOf_of_member hasMembers isMember found
      obtain ⟨value, isValue⟩ :=
        exists_memberValue shaped inTable whole isMemberOf found isElsewhere
          (ofParts memberType isPart isElsewhere) wholeWords enough
      exact ⟨_, by rw [if_neg notElsewhere]; exact ⟨value, isValue, rfl⟩⟩

/--
An array is decoded from any words that are enough if the type of its elements
is.
-/
theorem exists_sequence
    {given : Option Int}
    {length : Int}
    (shaped : layout.Decodable)
    (isArray : type.isArray)
    (found : layout.elementOf type = .ok element)
    (inPlace : storedElsewhere layout element = .ok false)
    (decodes : Decodes hash layout element)
    (isLength : given.elim type.fixedLength .ok = .ok length)
    (wholeWords : ∀ word ∈ words, word.length = slotSize)
    (enough : exactArraySpan length element.size ≤ words.length) :
    ∃ items, sequence hash layout words type given = .ok items := by
  have inTable := Layout.mem_types_of_lookup found
  have positive := shaped.size_pos inTable
  have wellSized := shaped.sizes element inTable
  have elements (index : Fin length.toNat) :
      ∃ found,
        value hash layout
            (between words (exactPlace index.val element.size).slot
              ((exactPlace index.val element.size).slot +
                exactSpan element.size))
            (exactPlace index.val element.size).offset element =
          .ok found := by
    have nonneg : (0 : Int) ≤ index.val :=
      Int.natCast_nonneg _
    have slotNonneg := exactPlace_slot_nonneg nonneg positive
    have ends :=
      @exactPlace_slot_add_le index.val length _ positive nonneg (by omega)
    have spanNonneg := exactSpan_nonneg positive.le
    apply decodes
    · exact TypeEntry.fitsAt_exactPlace positive (fun isScalar =>
        (wellSized.scalar isScalar).2)
        wellSized.dvd_of_not_isScalar
    · exact fun word isIn => wholeWords word (mem_of_mem_between isIn)
    · rw [length_between slotNonneg (by omega)]
      omega
  choose values areValues using elements
  refine ⟨List.ofFn values,
    (sequence_eq_ok_iff isArray found inPlace positive.le
    (fun _ => positive) (shaped.bounded element inTable) isLength).mpr
    ⟨enough, by simp, fun index inside => ?_⟩⟩
  rw [List.length_ofFn] at inside
  simpa using areValues ⟨index, inside⟩

/-- Every type whose values do not lie elsewhere is decoded. -/
theorem decodes_of_storedElsewhere
    (shaped : layout.Decodable)
    (inTable : type ∈ layout.types)
    (inPlace : storedElsewhere layout type = .ok false) :
    Decodes hash layout type := by
  revert inPlace
  apply shaped.acyclic.induction _ inTable
  intro type inTable ofParts inPlace
  by_cases isScalar : type.isScalar
  · exact decodes_of_isScalar shaped.toCompilerShaped inTable isScalar
  by_cases isStruct : type.isStruct
  · exact decodes_of_isStruct shaped inTable isStruct ofParts
  have isFixedArray :=
    (TypeEntry.isStruct_or_isFixedArray (encoding_of_storedElsewhere inPlace)
      isScalar).resolve_left isStruct
  obtain ⟨element, elementHere, elementInPlace⟩ :=
    elementInPlace_of_storedElsewhere shaped.acyclic inTable
      isFixedArray inPlace
  have found := elementOf_of_elementInPlace elementHere
  obtain ⟨length, isLength, isSize⟩ :=
    shaped.size_of_isFixedArray inTable isFixedArray found
  have isPart := Layout.isPartOf_of_element isFixedArray found
  intro words offset _ wholeWords enough
  obtain ⟨items, areItems⟩ :=
    @exists_sequence hash _ _ _ words none length shaped
      (by simp [TypeEntry.isArray, isFixedArray])
      found elementInPlace
        (ofParts element isPart elementInPlace) isLength wholeWords
      (by simp only [exactSpan] at enough; omega)
  exact ⟨_, by
    rw [value_of_isFixedArray shaped.acyclic inTable
      (by simpa using isStruct) isFixedArray, areItems]
    rfl⟩

end Decode

end EvmStorage
