import EvmStorage.Decode
import EvmStorage.Value.Shown
import Mathlib.Data.List.Pairwise

namespace EvmStorage

/-!
# Labels of members

Members are looked up by labels that are equal, and a decoded struct has its
members under labels that are the same.  For the labels that can be keys both
come to the same thing, so members with distinct labels never share a place.
-/

namespace Value

/-- Whether a value can be a key, and is equal to itself. -/
def isKey (label : Value) : Bool :=
  label.isLabel && !label.isNotNumber

/-- Whether a member can be looked up by a label, and the label can be shown. -/
def isName (label : Value) : Bool :=
  label.isKey && label.canShow

variable {label other value : Value}

theorem isLabel_of_isKey (isKey : label.isKey) : label.isLabel := by
  simp only [Value.isKey, Bool.and_eq_true] at isKey
  exact isKey.1

theorem isKey_of_isName (isName : label.isName) : label.isKey := by
  simp only [Value.isName, Bool.and_eq_true] at isName
  exact isName.1

theorem canShow_of_isName (isName : label.isName) : label.canShow := by
  simp only [Value.isName, Bool.and_eq_true] at isName
  exact isName.2

private theorem equals_of_isLabel (isLabel : label.isLabel) :
    label.equals other = (!label.isNotNumber && label.sameLabel other) := by
  cases label <;> simp_all [equals, Value.isLabel]

/-- Keys are one label exactly if they are equal. -/
theorem sameLabel_eq_equals (isKey : label.isKey) :
    label.sameLabel other = label.equals other := by
  rw [equals_of_isLabel (isLabel_of_isKey isKey)]
  simp only [Value.isKey, Bool.and_eq_true, Bool.not_eq_true'] at isKey
  simp [isKey.2]

theorem equals_self (isKey : label.isKey) :
    label.equals label = true := by
  rw [← sameLabel_eq_equals isKey]
  simp [sameLabel, same_self]

/-- Only a text is equal to a text. -/
theorem equals_text_iff
    {text : String} :
    label.equals (.text text) = true ↔ label = .text text := by
  cases label <;>
    simp [equals, sameLabel, same, sameNumber, number?, isNotNumber]

/-- A member with a new label stands behind the members that are there. -/
theorem setMember_of_new
    {members : List (Value × Value)}
    (isNew : ∀ member ∈ members, member.1.sameLabel label = false) :
    setMember label value members = members ++ [(label, value)] := by
  induction members with
  | nil =>
      rfl
  | cons member rest inductionHypothesis =>
      obtain ⟨differs, isNewInRest⟩ := List.forall_mem_cons.mp isNew
      simp [setMember, differs, inductionHypothesis isNewInRest]

/-- A member that is there after one is set is this one or was there before. -/
theorem mem_setMember
    {members : List (Value × Value)}
    {entry : Value × Value}
    (isEntry : entry ∈ setMember label value members) :
    entry.1.sameLabel label ∧ entry.2 = value ∨ entry ∈ members := by
  have self : label.sameLabel label := by
    simp [sameLabel, same_self]
  induction members with
  | nil =>
      cases List.mem_singleton.mp isEntry
      exact .inl ⟨self, rfl⟩
  | cons member rest inductionHypothesis =>
      rw [setMember] at isEntry
      split at isEntry
      · next isSame =>
          rcases List.mem_cons.mp isEntry with rfl | inRest
          · exact .inl ⟨isSame, rfl⟩
          · exact .inr (List.mem_cons_of_mem _ inRest)
      · rcases List.mem_cons.mp isEntry with rfl | inRest
        · exact .inr List.mem_cons_self
        · exact (inductionHypothesis inRest).imp_right (List.mem_cons_of_mem _)

end Value

/-- Whether no two members have equal labels. -/
def DistinctLabels (members : List Variable) : Prop :=
  members.Pairwise fun earlier later => earlier.label.equals later.label = false

instance (members : List Variable) : Decidable (DistinctLabels members) :=
  inferInstanceAs (Decidable (members.Pairwise _))

/-- Whether no two members stand under one label. -/
def DistinctKeys (members : List Variable) : Prop :=
  members.Pairwise fun earlier later =>
    earlier.label.sameLabel later.label = false

namespace DistinctLabels

variable {members : List Variable} {member : Variable}

/--
Members with distinct labels do not stand under one label if all labels can be
keys.
-/
theorem keys
    (distinct : DistinctLabels members)
    (areKeys : ∀ member ∈ members, member.label.isKey) :
    DistinctKeys members := by
  apply List.Pairwise.imp_of_mem _ distinct
  intro earlier later isEarlier _ differs
  rw [Value.sameLabel_eq_equals (areKeys earlier isEarlier)]
  exact differs

/-- A member is found under its label if no earlier one has an equal label. -/
theorem find?_label
    (distinct : DistinctLabels members)
    (isMember : member ∈ members)
    (isKey : member.label.isKey) :
    members.find? (fun other => other.label.equals member.label) =
      some member := by
  induction members with
  | nil =>
      cases isMember
  | cons head rest inductionHypothesis =>
      obtain ⟨headDiffers, restDistinct⟩ := List.pairwise_cons.mp distinct
      rcases List.mem_cons.mp isMember with isHead | inRest
      · subst member
        simp [Value.equals_self isKey]
      · simp [headDiffers member inRest,
          inductionHypothesis restDistinct inRest]

end DistinctLabels

end EvmStorage
