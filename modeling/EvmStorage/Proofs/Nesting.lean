import EvmStorage.Decode
import EvmStorage.Proofs.Outcome
import Mathlib.Data.List.Perm.Subperm
import Mathlib.Logic.Relation

namespace EvmStorage

/-!
# Nesting of types

The parts of a type that lie in its own slots are the types of its members and,
for an array with a length in its label, the type of its elements.  If no type
is a part of itself, a chain of parts is no longer than the table of types, so
the bound on the depth of decoding is never met.  Decoding then has equations
that do not mention a depth.
-/

namespace TypeEntry

/-- A struct has members. -/
theorem isStruct_iff
    {type : TypeEntry} :
    type.isStruct = true ↔ ∃ members, type.members = some members := by
  simp [isStruct, Option.isSome_iff_exists]

/-- A fixed array is stored in place and has elements. -/
theorem isFixedArray_iff
    {type : TypeEntry} :
    type.isFixedArray = true ↔
      type.encoding = .inplace ∧ ∃ base, type.base = some base := by
  simp [isFixedArray, Option.isSome_iff_exists]

/-- A scalar is stored in place and has neither elements nor members. -/
theorem isScalar_iff
    {type : TypeEntry} :
    type.isScalar = true ↔
      type.encoding = .inplace ∧ type.base = none ∧ type.members = none := by
  simp [isScalar, and_assoc]

/-- A struct is no scalar. -/
theorem isScalar_of_isStruct
    {type : TypeEntry}
    (isStruct : type.isStruct) :
    type.isScalar = false := by
  obtain ⟨members, hasMembers⟩ := isStruct_iff.mp isStruct
  simp [isScalar, hasMembers]

/-- A fixed array is no scalar. -/
theorem isScalar_of_isFixedArray
    {type : TypeEntry}
    (isFixedArray : type.isFixedArray) :
    type.isScalar = false := by
  obtain ⟨_, base, hasBase⟩ := isFixedArray_iff.mp isFixedArray
  simp [isScalar, hasBase]

/-- What is stored in place and is no scalar has members or elements. -/
theorem isStruct_or_isFixedArray
    {type : TypeEntry}
    (isInPlace : type.encoding = .inplace)
    (notScalar : ¬ type.isScalar) :
    type.isStruct ∨ type.isFixedArray := by
  simp only [isScalar_iff, isInPlace, true_and, not_and_or] at notScalar
  rw [isStruct_iff, isFixedArray_iff]
  rcases notScalar with hasBase | hasMembers
  · exact .inr ⟨isInPlace, Option.ne_none_iff_exists'.mp hasBase⟩
  · exact .inl (Option.ne_none_iff_exists'.mp hasMembers)

/-- The values of an array are not found by keys. -/
theorem isMapping_of_isArray
    {type : TypeEntry}
    (isArray : type.isArray) :
    type.isMapping = false := by
  cases encoding : type.encoding <;>
    simp_all [TypeEntry.isArray, isFixedArray, isDynamicArray, isMapping]

/-- An array is no scalar. -/
theorem isScalar_of_isArray
    {type : TypeEntry}
    (isArray : type.isArray) :
    type.isScalar = false := by
  rcases (Bool.or_eq_true _ _).mp isArray with isFixedArray | isDynamicArray
  · exact isScalar_of_isFixedArray isFixedArray
  · have encoding : type.encoding = .dynamicArray := by
      simpa [TypeEntry.isDynamicArray] using isDynamicArray
    simp [isScalar, encoding]

end TypeEntry

namespace Layout

/-- The types of the members of a struct, as far as they are in the table. -/
def memberTypes
    (layout : Layout)
    (type : TypeEntry) :
    List TypeEntry :=
  (type.members.getD []).filterMap fun member =>
    (layout.lookup member.type).toOption

/-- The type of the elements of a fixed array, if it is in the table. -/
def elementTypes
    (layout : Layout)
    (type : TypeEntry) :
    List TypeEntry :=
  if type.isFixedArray then
    (layout.elementOf type).toOption.toList
  else
    []

/-- The types whose values lie in the slots of a value of a type. -/
def parts
    (layout : Layout)
    (type : TypeEntry) :
    List TypeEntry :=
  layout.memberTypes type ++ layout.elementTypes type

/-- Whether the values of one type are parts of the values of another one. -/
def IsPartOf
    (layout : Layout)
    (part whole : TypeEntry) :
    Prop :=
  part ∈ layout.parts whole

/-- Whether no type is nested in itself. -/
def Acyclic (layout : Layout) : Prop :=
  ∀ type, ¬ Relation.TransGen layout.IsPartOf type type

/--
Whether every chain of parts of a type, itself included, has at most so many
types.
-/
def NestedWithin
    (layout : Layout) :
    Nat →
    TypeEntry →
    Prop
  | 0, _ => False
  | depth + 1, type =>
    ∀ part ∈ layout.parts type, NestedWithin layout depth part

instance NestedWithin.decidable (layout : Layout) :
    ∀ (depth : Nat) (type : TypeEntry),
      Decidable (layout.NestedWithin depth type)
  | 0, _ => .isFalse id
  | depth + 1, type =>
      have (part : TypeEntry) : Decidable (layout.NestedWithin depth part) :=
        NestedWithin.decidable layout depth part
      List.decidableBAll _ (layout.parts type)

/-- A type that is found is in the table. -/
theorem mem_types_of_lookup
    {layout : Layout}
    {id : Value}
    {type : TypeEntry}
    (found : layout.lookup id = .ok type) :
    type ∈ layout.types := by
  cases id with
  | text name =>
      simp only [lookup] at found
      split at found
      · next entry foundEntry =>
          cases found
          exact List.mem_of_find?_eq_some foundEntry
      · cases found
  | _ =>
      simp only [lookup] at found
      split at found <;> cases found

/-- The type of a member is a part of its struct. -/
theorem isPartOf_of_member
    {layout : Layout}
    {type memberType : TypeEntry}
    {members : List Variable}
    {member : Variable}
    (isStruct : type.members = some members)
    (isMember : member ∈ members)
    (found : layout.lookup member.type = .ok memberType) :
    layout.IsPartOf memberType type := by
  apply List.mem_append_left
  apply List.mem_filterMap.mpr
  exact ⟨member, by simpa [isStruct] using isMember, by rw [found]; rfl⟩

/-- The type of the elements is a part of a fixed array. -/
theorem isPartOf_of_element
    {layout : Layout}
    {type element : TypeEntry}
    (isFixedArray : type.isFixedArray)
    (found : layout.elementOf type = .ok element) :
    layout.IsPartOf element type := by
  apply List.mem_append_right
  simp [elementTypes, isFixedArray, found, Except.toOption]

/-- Parts are in the table. -/
theorem IsPartOf.mem_types
    {layout : Layout}
    {part whole : TypeEntry}
    (isPart : layout.IsPartOf part whole) :
    part ∈ layout.types := by
  have ofOption
      {id : Value}
      (found : (layout.lookup id).toOption = some part) :
      part ∈ layout.types := by
    cases result : layout.lookup id with
    | ok type =>
        rw [result] at found
        cases found
        exact mem_types_of_lookup result
    | error fault =>
        rw [result] at found
        cases found
  rcases List.mem_append.mp isPart with inMembers | inElements
  · obtain ⟨member, _, found⟩ := List.mem_filterMap.mp inMembers
    exact ofOption found
  · simp only [elementTypes] at inElements
    split at inElements
    · exact ofOption (Option.mem_toList.mp inElements)
    · cases inElements

/--
Types that are passed on the way down to a type are different ones, so there
are not more of them than the table has.
-/
private theorem Acyclic.nestedWithin_below
    {layout : Layout}
    (acyclic : layout.Acyclic)
    {depth : Nat}
    {passed : List TypeEntry}
    {type : TypeEntry}
    (distinct : passed.Nodup)
    (inTable : passed ⊆ layout.types)
    (member : type ∈ layout.types)
    (below : ∀ other ∈ passed, Relation.TransGen layout.IsPartOf type other)
    (enough : layout.types.length ≤ passed.length + depth) :
    layout.NestedWithin depth type := by
  have isNew : type ∉ passed :=
    fun wasPassed => acyclic type (below type wasPassed)
  have distinctHere : (type :: passed).Nodup :=
    List.nodup_cons.mpr ⟨isNew, distinct⟩
  have inTableHere : type :: passed ⊆ layout.types :=
    List.cons_subset.mpr ⟨member, inTable⟩
  induction depth generalizing passed type with
  | zero =>
      have := (List.Nodup.subperm distinctHere inTableHere).length_le
      simp only [List.length_cons] at this
      omega
  | succ depth inductionHypothesis =>
      intro part isPart
      have belowHere :
          ∀ other ∈ type :: passed,
            Relation.TransGen layout.IsPartOf part other := by
        intro other wasPassed
        rcases List.mem_cons.mp wasPassed with isHere | above
        · subst other
          exact .single isPart
        · exact .head isPart (below other above)
      have isNewPart : part ∉ type :: passed :=
        fun wasPassed => acyclic part (belowHere part wasPassed)
      have partInTable : part ∈ layout.types :=
        IsPartOf.mem_types isPart
      exact inductionHypothesis distinctHere inTableHere partInTable belowHere
        (by simp only [List.length_cons]; omega)
        isNewPart
        (List.nodup_cons.mpr ⟨isNewPart, distinctHere⟩)
        (List.cons_subset.mpr ⟨partInTable, inTableHere⟩)

/-- Without cycles, chains of parts are no longer than the table of types. -/
theorem Acyclic.nestedWithin
    {layout : Layout}
    (acyclic : layout.Acyclic)
    {type : TypeEntry}
    (member : type ∈ layout.types) :
    layout.NestedWithin layout.types.length type :=
  acyclic.nestedWithin_below List.nodup_nil (List.nil_subset _) member
    (fun _ wasPassed => nomatch wasPassed) (by simp)

/-- What a type has if all its parts have it, every type of the table has. -/
theorem Acyclic.induction
    {layout : Layout}
    (acyclic : layout.Acyclic)
    {motive : TypeEntry → Prop}
    (step :
      ∀ type ∈ layout.types,
        (∀ part, layout.IsPartOf part type → motive part) →
        motive type)
    {type : TypeEntry}
    (inTable : type ∈ layout.types) :
    motive type := by
  have nested := acyclic.nestedWithin inTable
  generalize layout.types.length = depth at nested
  induction depth generalizing type with
  | zero =>
      exact nested.elim
  | succ depth inductionHypothesis =>
      exact step type inTable fun part isPart =>
        inductionHypothesis (IsPartOf.mem_types isPart) (nested part isPart)

/-- A bound on chains of parts may be raised. -/
theorem NestedWithin.mono
    {layout : Layout}
    {depth other : Nat}
    {type : TypeEntry}
    (nested : layout.NestedWithin depth type)
    (deeper : depth ≤ other) :
    layout.NestedWithin other type := by
  induction depth generalizing other type with
  | zero =>
      exact nested.elim
  | succ depth inductionHypothesis =>
      cases other with
      | zero =>
          cases deeper
      | succ other =>
          intro part isPart
          exact inductionHypothesis (nested part isPart)
            (Nat.le_of_succ_le_succ deeper)

/-- A type whose chains of parts end is not nested in itself. -/
theorem NestedWithin.not_transGen
    {layout : Layout}
    {depth : Nat}
    {type : TypeEntry}
    (nested : layout.NestedWithin depth type) :
    ¬ Relation.TransGen layout.IsPartOf type type := by
  induction depth generalizing type with
  | zero =>
      exact nested.elim
  | succ depth inductionHypothesis =>
      intro cycle
      obtain ⟨part, toPart, isPart⟩ :
          ∃ part,
            Relation.ReflTransGen layout.IsPartOf type part ∧
              layout.IsPartOf part type :=
        Relation.TransGen.tail'_iff.mp cycle
      exact inductionHypothesis (nested part isPart) (.head' isPart toPart)

/--
Whether a layout is free of cycles can be told by following its chains of
parts.
-/
theorem acyclic_iff
    {layout : Layout} :
    layout.Acyclic ↔
      ∀ type ∈ layout.types, layout.NestedWithin layout.types.length type := by
  constructor
  · intro acyclic type member
    exact acyclic.nestedWithin member
  · intro nested type cycle
    obtain ⟨whole, isPart, _⟩ :
        ∃ whole,
          layout.IsPartOf type whole ∧
            Relation.ReflTransGen layout.IsPartOf whole type :=
      Relation.TransGen.head'_iff.mp cycle
    exact (nested type (IsPartOf.mem_types isPart)).not_transGen cycle

instance (layout : Layout) : Decidable layout.Acyclic :=
  decidable_of_iff' _ acyclic_iff

end Layout

namespace Decode

open Layout

variable {hash : Digest} {layout : Layout}

/--
Where the values of a type lie is found at every depth that its chains of parts
fit in.
-/
private theorem storedElsewhereWithin_eq
    {depth other : Nat}
    {type : TypeEntry}
    (nested : layout.NestedWithin depth type)
    (otherNested : layout.NestedWithin other type) :
    storedElsewhereWithin layout depth type =
      storedElsewhereWithin layout other type := by
  induction depth generalizing other type with
  | zero =>
      exact nested.elim
  | succ depth inductionHypothesis =>
      cases other with
      | zero =>
          exact otherNested.elim
      | succ other =>
          simp only [storedElsewhereWithin]
          split
          · rfl
          · split
            · next isFixedArray =>
                cases found : layout.elementOf type with
                | error fault =>
                    rfl
                | ok element =>
                    have isPart := isPartOf_of_element isFixedArray found
                    exact inductionHypothesis
                      (nested element isPart)
                      (otherNested element isPart)
            · rfl

/-- The element type of an array is the one that its base names. -/
theorem elementOf_of_elementInPlace
    {type element : TypeEntry}
    (found : elementInPlace layout type = .ok element) :
    layout.elementOf type = .ok element := by
  simp only [elementInPlace, Outcome.bind_eq_ok_iff] at found
  obtain ⟨base, isBase, elsewhere, _, result⟩ := found
  split at result
  · cases result
  · cases result
    exact isBase

/-- Elements are decoded alike by decoders that agree on their type. -/
private theorem sequenceWith_congr
    {first second : PartDecoder}
    {type : TypeEntry}
    (same :
      ∀ element,
        layout.elementOf type = .ok element →
        ∀ words offset,
          first words offset element = second words offset element)
    (words : List Bytes)
    (length : Option Int) :
    sequenceWith first layout words type length =
      sequenceWith second layout words type length := by
  unfold sequenceWith
  split
  · rfl
  · cases found : elementInPlace layout type with
    | error fault =>
        simp only [Outcome.error_bind]
    | ok element =>
        have sameElement :
            elementWith first words element =
              elementWith second words element := by
          funext span index
          simp only [elementWith,
            same element (elementOf_of_elementInPlace found)]
        simp only [Outcome.ok_bind, sameElement]

/-- Members are decoded alike by decoders that agree on their types. -/
private theorem structWith_congr
    {first second : PartDecoder}
    {type : TypeEntry}
    (same :
      ∀ members,
        type.members = some members →
        ∀ member ∈ members, ∀ memberType,
          layout.lookup member.type = .ok memberType →
          ∀ words offset,
            first words offset memberType = second words offset memberType)
    (words : List Bytes) :
    structWith first layout words type =
      structWith second layout words type := by
  unfold structWith
  split
  · rfl
  · next members isStruct =>
      apply Outcome.foldlM_congr
      intro decoded member isMember
      unfold memberWith
      cases found : layout.lookup member.type with
      | error fault =>
          simp only [Outcome.error_bind]
      | ok memberType =>
          simp only [Outcome.ok_bind,
            same members isStruct member isMember memberType found]

/--
A value is decoded alike at every depth that the chains of parts of its type
fit in.
-/
private theorem valueWithin_eq
    {depth other : Nat}
    {type : TypeEntry}
    (nested : layout.NestedWithin depth type)
    (otherNested : layout.NestedWithin other type)
    (words : List Bytes)
    (offset : Int) :
    valueWithin hash layout depth words offset type =
      valueWithin hash layout other words offset type := by
  induction depth generalizing other type words offset with
  | zero =>
      exact nested.elim
  | succ depth inductionHypothesis =>
      cases other with
      | zero =>
          exact otherNested.elim
      | succ other =>
          simp only [valueWithin]
          split
          · rfl
          · split
            · rw [structWith_congr]
              intro members isStruct member isMember memberType found
              have isPart := isPartOf_of_member isStruct isMember found
              exact inductionHypothesis
                (nested memberType isPart)
                (otherNested memberType isPart)
            · split
              · next isFixedArray =>
                  rw [sequenceWith_congr]
                  intro element found
                  have isPart := isPartOf_of_element isFixedArray found
                  exact inductionHypothesis
                    (nested element isPart)
                    (otherNested element isPart)
              · rfl

/-- The depth of decoding is enough for the types of a layout without cycles. -/
private theorem nestedWithin_depth
    (acyclic : layout.Acyclic)
    {type : TypeEntry}
    (inTable : type ∈ layout.types) :
    layout.NestedWithin layout.depth type :=
  (acyclic.nestedWithin inTable).mono (by unfold Layout.depth; omega)

/-- A value in one part of a slot is decoded from the first of its words. -/
theorem value_of_isScalar
    {type : TypeEntry}
    (isScalar : type.isScalar)
    (word : Bytes)
    (rest : List Bytes)
    (offset : Int) :
    value hash layout (word :: rest) offset type =
      (Word.window word offset type.size >>= fun data =>
        scalar hash data type) := by
  simp only [value, Layout.depth, valueWithin, isScalar, ↓reduceIte]

/-- A struct is decoded member by member. -/
theorem value_of_isStruct
    (acyclic : layout.Acyclic)
    {type : TypeEntry}
    (inTable : type ∈ layout.types)
    (isStruct : type.isStruct)
    (words : List Bytes)
    (offset : Int) :
    value hash layout words offset type =
      (struct hash layout words type).map .struct := by
  have nested := nestedWithin_depth acyclic inTable
  have notScalar := TypeEntry.isScalar_of_isStruct isStruct
  rw [value, valueWithin_eq nested (nested.mono (Nat.le_succ _))]
  simp only [valueWithin, notScalar, isStruct, ↓reduceIte, struct,
    Bool.false_eq_true]
  rfl

/-- An array with a length in its label is decoded element by element. -/
theorem value_of_isFixedArray
    (acyclic : layout.Acyclic)
    {type : TypeEntry}
    (inTable : type ∈ layout.types)
    (notStruct : type.isStruct = false)
    (isFixedArray : type.isFixedArray)
    (words : List Bytes)
    (offset : Int) :
    value hash layout words offset type =
      (sequence hash layout words type none).map .list := by
  have nested := nestedWithin_depth acyclic inTable
  have notScalar := TypeEntry.isScalar_of_isFixedArray isFixedArray
  rw [value, valueWithin_eq nested (nested.mono (Nat.le_succ _))]
  simp only [valueWithin, notScalar, notStruct, isFixedArray, ↓reduceIte,
    sequence, Bool.false_eq_true]
  rfl

/-- The values of a fixed array lie elsewhere if those of its elements do. -/
theorem storedElsewhere_of_isFixedArray
    (acyclic : layout.Acyclic)
    {type : TypeEntry}
    (inTable : type ∈ layout.types)
    (isFixedArray : type.isFixedArray) :
    storedElsewhere layout type =
      (layout.elementOf type >>= storedElsewhere layout) := by
  have nested := nestedWithin_depth acyclic inTable
  have isInPlace :
      (type.isMapping || type.isDynamicArray || type.isBytes) = false := by
    obtain ⟨inPlace, _⟩ := TypeEntry.isFixedArray_iff.mp isFixedArray
    simp [TypeEntry.isMapping, TypeEntry.isDynamicArray, TypeEntry.isBytes,
      inPlace]
  rw [storedElsewhere,
    storedElsewhereWithin_eq nested (nested.mono (Nat.le_succ _))]
  simp only [storedElsewhereWithin, isInPlace, isFixedArray, ↓reduceIte,
    Bool.false_eq_true]
  rfl

/-- The values of all types of another encoding lie elsewhere. -/
theorem storedElsewhere_of_encoding
    {type : TypeEntry}
    (notInPlace : type.encoding ≠ .inplace) :
    storedElsewhere layout type = .ok true := by
  have isElsewhere :
      (type.isMapping || type.isDynamicArray || type.isBytes) = true := by
    simp only [TypeEntry.isMapping, TypeEntry.isDynamicArray, TypeEntry.isBytes]
    cases encoding : type.encoding <;> simp_all
  simp only [storedElsewhere, Layout.depth, storedElsewhereWithin, isElsewhere,
    ↓reduceIte]

/-- The values of a type without elements lie in its own slots. -/
theorem storedElsewhere_of_base_isNone
    {type : TypeEntry}
    (inPlace : type.encoding = .inplace)
    (noBase : type.base = none) :
    storedElsewhere layout type = .ok false := by
  simp [storedElsewhere, Layout.depth, storedElsewhereWithin,
    TypeEntry.isMapping, TypeEntry.isDynamicArray, TypeEntry.isBytes,
    TypeEntry.isFixedArray, inPlace, noBase]

end Decode

end EvmStorage
