import EvmStorage.Proofs.Labels
import EvmStorage.Proofs.Nesting
import EvmStorage.Proofs.Span
import EvmStorage.Proofs.Memory

namespace EvmStorage

/-!
# Decoding part by part

An array is decoded if all its elements are, and a struct if all the members
are that do not lie elsewhere.  Here both are told apart from the loops that
decode them.
-/

namespace Layout

/-- Whether the values of a member are known to lie elsewhere. -/
def liesElsewhere
    (layout : Layout)
    (member : Variable) :
    Bool :=
  (layout.lookup member.type >>= Decode.storedElsewhere layout).toOption =
    some true

/-- The members that do not lie elsewhere, in their order. -/
def ownMembers
    (layout : Layout)
    (members : List Variable) :
    List Variable :=
  members.filter fun member => !layout.liesElsewhere member

/-- Where a member lies is told by its type. -/
theorem liesElsewhere_iff
    {layout : Layout}
    {member : Variable}
    {memberType : TypeEntry}
    (found : layout.lookup member.type = .ok memberType) :
    layout.liesElsewhere member = true ↔
      Decode.storedElsewhere layout memberType = .ok true := by
  simp only [liesElsewhere, found, Outcome.ok_bind, decide_eq_true_eq]
  constructor
  · exact Outcome.eq_ok_of_toOption
  · intro isElsewhere
    rw [isElsewhere]
    rfl

/-- Whether the size of a type is not rounded, if there is the type. -/
def HasExactSize
    (layout : Layout)
    (id : Value) :
    Prop :=
  ∀ type,
    layout.lookup id = .ok type → 0 ≤ type.size ∧ type.size ≤ greatestExactSize

end Layout

namespace Decode

variable {hash : Digest} {layout : Layout} {words : List Bytes}
  {members : List Variable}

/-- The element type of an array whose elements do not lie elsewhere. -/
theorem elementInPlace_eq
    {type element : TypeEntry}
    (found : layout.elementOf type = .ok element)
    (inPlace : storedElsewhere layout element = .ok false) :
    elementInPlace layout type = .ok element := by
  simp [elementInPlace, found, inPlace]

/--
An array is decoded if there are enough words, and its elements are the values
that lie at their places in these words.
-/
theorem sequence_eq_ok_iff
    {type element : TypeEntry}
    {given : Option Int}
    {length : Int}
    {items : List Value}
    (isArray : type.isArray)
    (found : layout.elementOf type = .ok element)
    (inPlace : storedElsewhere layout element = .ok false)
    (nonneg : 0 ≤ element.size)
    (sized : 0 < length → 0 < element.size)
    (bounded : element.size ≤ greatestExactSize)
    (isLength : given.elim type.fixedLength .ok = .ok length) :
    sequence hash layout words type given = .ok items ↔
      exactArraySpan length element.size ≤ words.length ∧
        items.length = length.toNat ∧
        ∀ index (inside : index < items.length),
          value hash layout
            (between words (exactPlace index element.size).slot
              ((exactPlace index element.size).slot + exactSpan element.size))
            (exactPlace index element.size).offset element =
              .ok items[index] := by
  have elementAt (index : Nat) (inArray : (index : Int) < length) :
      elementWith (valueWithin hash layout layout.depth) words element
          (exactSpan element.size) index =
        value hash layout
          (between words (exactPlace index element.size).slot
            ((exactPlace index element.size).slot + exactSpan element.size))
          (exactPlace index element.size).offset element := by
    have positive := sized (by omega)
    simp only [elementWith,
      elementPlace_eq (Int.natCast_nonneg index) positive bounded,
      Outcome.ok_bind, value]
  have decoded :
      sequence hash layout words type given =
        if (words.length : Int) < exactArraySpan length element.size then
          .error (.schema (.tooFewSlots type.label length
            (exactArraySpan length element.size) words.length))
        else
          (List.range length.toNat).mapM
            (elementWith (valueWithin hash layout layout.depth) words element
              (exactSpan element.size)) := by
    simp only [sequence, sequenceWith, isArray, Bool.not_true,
      Bool.false_eq_true, ↓reduceIte, elementInPlace_eq found inPlace,
      Outcome.ok_bind]
    cases given with
    | none =>
        simp only [Option.elim_none] at isLength
        simp only [isLength, Outcome.ok_bind, slotSpan_eq nonneg bounded,
          arraySpan_eq sized bounded]
    | some given =>
        cases isLength
        simp only [Outcome.ok_bind, slotSpan_eq nonneg bounded,
          arraySpan_eq sized bounded]
  rw [decoded]
  split
  · next tooFew =>
      simp [not_le.mpr tooFew]
  · next enough =>
      rw [Outcome.mapM_range_eq_ok_iff]
      simp only [not_lt.mp enough, true_and]
      refine and_congr_right fun sameLength =>
        forall₂_congr fun index inside => ?_
      rw [elementAt index (by omega)]

/-- Whether a member has a value in the words of its struct. -/
def IsMemberValue
    (hash : Digest)
    (layout : Layout)
    (words : List Bytes)
    (member : Variable)
    (found : Value) :
    Prop :=
  ∃ memberType,
    layout.lookup member.type = .ok memberType ∧
      storedElsewhere layout memberType = .ok false ∧
      exactSpan memberType.size ≤
        (between words member.slot
          (member.slot + exactSpan memberType.size)).length ∧
      value hash layout
          (between words member.slot (member.slot + exactSpan memberType.size))
          member.offset memberType =
        .ok found ∧
      member.label.isLabel

/--
A member is passed over if it lies elsewhere, and else has a value of its own.
-/
theorem memberWith_eq_ok_iff
    {type : TypeEntry}
    {member : Variable}
    {decoded result : List (Value × Value)}
    (sized : layout.HasExactSize member.type) :
    memberWith (valueWithin hash layout layout.depth) layout words type
      decoded member =
        .ok result ↔
      if layout.liesElsewhere member then
        decoded = result
      else
        ∃ found,
          IsMemberValue hash layout words member found ∧
            Value.setMember member.label found decoded = result := by
  unfold memberWith IsMemberValue
  cases isFound : layout.lookup member.type with
  | error fault =>
      have notElsewhere : layout.liesElsewhere member = false := by
        simp [Layout.liesElsewhere, isFound, Except.toOption]
      simp [notElsewhere]
  | ok memberType =>
      obtain ⟨sizeNonneg, bounded⟩ := sized memberType isFound
      have elsewhere_iff := Layout.liesElsewhere_iff isFound
      cases isElsewhere : storedElsewhere layout memberType with
      | error fault =>
          simp_all
      | ok elsewhere =>
          cases elsewhere with
          | true =>
              simp_all
          | false =>
              have notElsewhere : layout.liesElsewhere member = false := by
                simp_all
              simp only [Outcome.ok_bind, notElsewhere, Bool.false_eq_true,
                ↓reduceIte, slotSpan_eq sizeNonneg bounded, isElsewhere,
                Except.ok.injEq, exists_eq_left', true_and]
              split
              · next outside =>
                  simp [not_le.mpr outside]
              · next inside =>
                  simp only [not_lt.mp inside, true_and, Outcome.bind_eq_ok_iff,
                    value]
                  constructor
                  · rintro ⟨found, isFound, isResult⟩
                    split at isResult
                    · next isLabel =>
                        cases isResult
                        exact ⟨found, ⟨isFound, isLabel⟩, rfl⟩
                    · cases isResult
                  · rintro ⟨found, ⟨isFound, isLabel⟩, rfl⟩
                    exact ⟨found, isFound, by simp [isLabel]⟩

/-- The own members of a struct are decoded one after the other. -/
private theorem foldlM_memberWith_eq_ok_iff
    {type : TypeEntry}
    {decoded result : List (Value × Value)}
    (sized : ∀ member ∈ members, layout.HasExactSize member.type)
    (distinct : DistinctKeys (layout.ownMembers members))
    (areNew :
      ∀ entry ∈ decoded, ∀ member ∈ layout.ownMembers members,
        entry.1.sameLabel member.label = false) :
    members.foldlM
      (memberWith (valueWithin hash layout layout.depth) layout words type)
        decoded = .ok result ↔
      ∃ found,
        List.Forall₂ (IsMemberValue hash layout words)
          (layout.ownMembers members) found ∧
          decoded ++ ((layout.ownMembers members).map Variable.label).zip
            found = result := by
  induction members generalizing decoded with
  | nil =>
      simp [Layout.ownMembers]
  | cons member rest inductionHypothesis =>
      obtain ⟨memberSized, restSized⟩ := List.forall_mem_cons.mp sized
      simp only [List.foldlM_cons, Outcome.bind_eq_ok_iff,
        memberWith_eq_ok_iff memberSized]
      cases elsewhere : layout.liesElsewhere member with
      | true =>
          have sameOwn :
              layout.ownMembers (member :: rest) = layout.ownMembers rest := by
            simp [Layout.ownMembers, elsewhere]
          rw [sameOwn] at distinct areNew ⊢
          simp only [↓reduceIte, exists_eq_left']
          exact inductionHypothesis restSized distinct areNew
      | false =>
          have isFirst :
              layout.ownMembers (member :: rest) =
                member :: layout.ownMembers rest := by
            simp [Layout.ownMembers, elsewhere]
          rw [isFirst] at distinct areNew ⊢
          obtain ⟨memberDiffers, restDistinct⟩ := List.pairwise_cons.mp distinct
          have isNew :
              ∀ entry ∈ decoded, entry.1.sameLabel member.label = false :=
            fun entry isEntry => areNew entry isEntry member List.mem_cons_self
          have laterAreNew (found : Value) :
              ∀ entry ∈ decoded ++ [(member.label, found)],
                ∀ later ∈ layout.ownMembers rest,
                  entry.1.sameLabel later.label = false := by
            intro entry isEntry later isLater
            rcases List.mem_append.mp isEntry with wasDecoded | isMember
            · exact areNew entry wasDecoded later
                (List.mem_cons_of_mem _ isLater)
            · cases List.mem_singleton.mp isMember
              exact memberDiffers later isLater
          simp only [Bool.false_eq_true, ↓reduceIte,
            Value.setMember_of_new isNew, List.forall₂_cons_left_iff]
          constructor
          · rintro ⟨_, ⟨found, isFound, rfl⟩, areDecoded⟩
            obtain ⟨others, areOthers, isResult⟩ :=
              (inductionHypothesis restSized restDistinct
                (laterAreNew found)).mp areDecoded
            exact ⟨found :: others, ⟨found, others, isFound, areOthers, rfl⟩,
              by simpa using isResult⟩
          · rintro ⟨_, ⟨found, others, isFound, areOthers, rfl⟩, isResult⟩
            refine ⟨_, ⟨found, isFound, rfl⟩, ?_⟩
            rw [inductionHypothesis restSized restDistinct (laterAreNew found)]
            exact ⟨others, areOthers, by simpa using isResult⟩

/--
A struct is decoded if its own members are, and has their values under their
labels.
-/
theorem struct_eq_ok_iff
    {type : TypeEntry}
    {result : List (Value × Value)}
    (hasMembers : type.members = some members)
    (sized : ∀ member ∈ members, layout.HasExactSize member.type)
    (distinct : DistinctKeys (layout.ownMembers members)) :
    struct hash layout words type = .ok result ↔
      ∃ found,
        List.Forall₂ (IsMemberValue hash layout words)
          (layout.ownMembers members) found ∧
          ((layout.ownMembers members).map Variable.label).zip found =
            result := by
  simp only [struct, structWith, hasMembers]
  exact foldlM_memberWith_eq_ok_iff sized distinct
    (fun _ isEntry => absurd isEntry List.not_mem_nil)

end Decode

end EvmStorage
