import EvmStorage.Json.Writer
import Mathlib.Data.List.Forall2
import Mathlib.Data.List.Nodup

namespace EvmStorage.Json

/-!
# Documents that are the same

An object has every name once, and its names stand in no order that matters.
Documents are the same if they differ in the order of names alone, at whatever
depth; such documents have one text, and so have a document and itself with all
names in order.
-/

/--
The documents without floating-point numbers; an object has every name once.
-/
inductive IsDocument : Value → Prop where
  | null : IsDocument .null
  | bool (flag : Bool) : IsDocument (.bool flag)
  | int (n : Int) : IsDocument (.int n)
  | text (s : String) : IsDocument (.text s)
  | list
      {items : List Value}
      (areDocuments : ∀ item ∈ items, IsDocument item) :
      IsDocument (.list items)
  | record
      {fields : List (String × Value)}
      (distinct : (fields.map Prod.fst).Nodup)
      (areDocuments : ∀ field ∈ fields, IsDocument field.2) :
      IsDocument (.record fields)

/--
Whether documents are equal up to the order of the names of objects at any
depth.
-/
inductive SameDocument : Value → Value → Prop where
  | null : SameDocument .null .null
  | bool (flag : Bool) : SameDocument (.bool flag) (.bool flag)
  | int (n : Int) : SameDocument (.int n) (.int n)
  | text (s : String) : SameDocument (.text s) (.text s)
  | list
      {items others : List Value}
      (sameLength : items.length = others.length)
      (areSame : ∀ pair ∈ items.zip others, SameDocument pair.1 pair.2) :
      SameDocument (.list items) (.list others)
  | record
      {fields others : List (String × Value)}
      (sameNames :
        ∀ name, name ∈ fields.map Prod.fst ↔ name ∈ others.map Prod.fst)
      (areSame :
        ∀ field ∈ fields, ∀ other ∈ others,
          field.1 = other.1 → SameDocument field.2 other.2) :
      SameDocument (.record fields) (.record others)

section Names

variable {fields others : List (String × α)}

/-- Fields in the order of their names. -/
def byName (fields : List (String × α)) : List (String × α) :=
  fields.mergeSort fun a b => decide (a.1 ≤ b.1)

theorem perm_byName (fields : List (String × α)) :
    (byName fields).Perm fields :=
  List.mergeSort_perm fields _

/-- In the order of names, each name is at most as great as the later ones. -/
theorem pairwise_byName (fields : List (String × α)) :
    (byName fields).Pairwise fun a b => decide (a.1 ≤ b.1) := by
  refine List.pairwise_mergeSort (fun a b c => ?_) (fun a b => ?_) fields
  · simp only [decide_eq_true_eq]
    exact String.le_trans
  · simpa using String.le_total a.1 b.1

/-- Fields may be changed before or after they are put in order. -/
theorem map_byName
    (change : α → β)
    (fields : List (String × α)) :
    (byName fields).map (fun field => (field.1, change field.2)) =
      byName (fields.map fun field => (field.1, change field.2)) :=
  List.map_mergeSort fun _ _ _ _ => rfl

/-- The field of a name is the only one, if the names are distinct. -/
theorem eq_of_sameName
    (distinct : (fields.map Prod.fst).Nodup)
    {field other : String × α}
    (isField : field ∈ fields)
    (isOther : other ∈ fields)
    (sameName : field.1 = other.1) :
    field = other :=
  List.inj_on_of_nodup_map distinct isField isOther sameName

/-- The order in which distinct names are given makes no difference. -/
theorem byName_eq_of_perm
    (distinct : (fields.map Prod.fst).Nodup)
    (reordered : fields.Perm others) :
    byName fields = byName others := by
  have sameFields : (byName fields).Perm (byName others) :=
    (perm_byName fields).trans (reordered.trans (perm_byName others).symm)
  refine sameFields.eq_of_pairwise
    (fun a b isFirst isSecond atMost atLeast => ?_)
    (pairwise_byName fields) (pairwise_byName others)
  have isField : a ∈ fields :=
    (perm_byName fields).mem_iff.mp isFirst
  have isOther : b ∈ fields :=
    reordered.mem_iff.mpr ((perm_byName others).mem_iff.mp isSecond)
  exact eq_of_sameName distinct isField isOther
    (String.le_antisymm (of_decide_eq_true atMost) (of_decide_eq_true atLeast))

/--
Fields with the same names, and with the same under each of them, are the same
ones.
-/
theorem perm_of_sameNames
    (distinct : (fields.map Prod.fst).Nodup)
    (otherDistinct : (others.map Prod.fst).Nodup)
    (sameNames :
      ∀ name, name ∈ fields.map Prod.fst ↔ name ∈ others.map Prod.fst)
    (areSame :
      ∀ field ∈ fields, ∀ other ∈ others,
        field.1 = other.1 → field.2 = other.2) :
    fields.Perm others := by
  refine (List.perm_ext_iff_of_nodup distinct.of_map otherDistinct.of_map).mpr
    fun field => ?_
  constructor
  · intro isField
    obtain ⟨other, isOther, sameName⟩ :=
      List.mem_map.mp ((sameNames field.1).mp (List.mem_map_of_mem isField))
    rwa [Prod.ext sameName.symm
      (areSame field isField other isOther sameName.symm)]
  · intro isField
    obtain ⟨other, isOther, sameName⟩ :=
      List.mem_map.mp ((sameNames field.1).mpr (List.mem_map_of_mem isField))
    rwa [← Prod.ext sameName (areSame other isOther field isField sameName)]

end Names

section Order

mutual

/-- A document with the names of all its objects in order. -/
def inOrder : Value → Value
  | .list items => .list (inOrderItems items)
  | .record fields => .record (byName (inOrderFields fields))
  | value => value

/-- Items with the names of all their objects in order. -/
def inOrderItems : List Value → List Value
  | [] => []
  | item :: rest => inOrder item :: inOrderItems rest

/-- Fields whose values have the names of all their objects in order. -/
def inOrderFields : List (String × Value) → List (String × Value)
  | [] => []
  | (name, value) :: rest => (name, inOrder value) :: inOrderFields rest

end

theorem inOrderItems_eq_map (items : List Value) :
    inOrderItems items = items.map inOrder := by
  induction items with
  | nil =>
      rfl
  | cons item rest inductionHypothesis =>
      rw [inOrderItems, inductionHypothesis, List.map_cons]

theorem inOrderFields_eq_map (fields : List (String × Value)) :
    inOrderFields fields = fields.map fun field =>
      (field.1, inOrder field.2) := by
  induction fields with
  | nil =>
      rfl
  | cons field rest inductionHypothesis =>
      rw [inOrderFields, inductionHypothesis, List.map_cons]

theorem writeItems_eq_map (items : List Value) :
    writeItems items = items.map write := by
  induction items with
  | nil =>
      rfl
  | cons item rest inductionHypothesis =>
      rw [writeItems, inductionHypothesis, List.map_cons]

theorem writeFields_eq_map (fields : List (String × Value)) :
    writeFields fields = fields.map fun field => (field.1, write field.2) := by
  induction fields with
  | nil =>
      rfl
  | cons field rest inductionHypothesis =>
      rw [writeFields, inductionHypothesis, List.map_cons]

variable {a b : Value}

/--
Items are changed to the same items exactly if every two in the same place are.
-/
theorem map_eq_map_iff_zip
    {change : α → β}
    {items others : List α} :
    items.map change = others.map change ↔
      items.length = others.length ∧ ∀ pair ∈ items.zip others,
        change pair.1 = change pair.2 := by
  induction items generalizing others with
  | nil =>
      cases others <;> simp
  | cons item rest inductionHypothesis =>
      cases others with
      | nil =>
          simp
      | cons other others =>
          simp [inductionHypothesis, and_left_comm]

/-- Fields whose values are changed keep their names. -/
theorem map_fst_changed
    (change : α → β)
    (fields : List (String × α)) :
    (fields.map fun field => (field.1, change field.2)).map Prod.fst =
      fields.map Prod.fst := by
  rw [List.map_map]
  rfl

/-- Documents with the same names in order are the same. -/
theorem sameDocument_of_inOrder_eq
    (isDocument : IsDocument a)
    (alsoDocument : IsDocument b)
    (inOrderEq : inOrder a = inOrder b) :
    SameDocument a b := by
  induction isDocument generalizing b with
  | null =>
      cases alsoDocument <;> simp [inOrder] at inOrderEq
      exact .null
  | bool flag =>
      cases alsoDocument <;> simp [inOrder] at inOrderEq
      exact inOrderEq ▸ .bool flag
  | int n =>
      cases alsoDocument <;> simp [inOrder] at inOrderEq
      exact inOrderEq ▸ .int n
  | text s =>
      cases alsoDocument <;> simp [inOrder] at inOrderEq
      exact inOrderEq ▸ .text s
  | @list items areDocuments inductionHypothesis =>
      cases alsoDocument with
      | null | bool | int | text | record =>
          simp [inOrder] at inOrderEq
      | @list others otherDocuments =>
          rw [inOrder, inOrder, Value.list.injEq, inOrderItems_eq_map,
            inOrderItems_eq_map, map_eq_map_iff_zip] at inOrderEq
          obtain ⟨sameLength, areEqual⟩ := inOrderEq
          refine .list sameLength fun pair isPair => ?_
          obtain ⟨isItem, isOther⟩ := List.of_mem_zip isPair
          exact inductionHypothesis _ isItem (otherDocuments _ isOther)
            (areEqual pair isPair)
  | @record fields distinct areDocuments inductionHypothesis =>
      cases alsoDocument with
      | null | bool | int | text | list =>
          simp [inOrder] at inOrderEq
      | @record others otherDistinct otherDocuments =>
          rw [inOrder, inOrder, Value.record.injEq, inOrderFields_eq_map,
            inOrderFields_eq_map] at inOrderEq
          have sameFields :
              (fields.map fun field => (field.1, inOrder field.2)).Perm
                (others.map fun field => (field.1, inOrder field.2)) := by
            refine (perm_byName _).symm.trans ?_
            rw [inOrderEq]
            exact perm_byName _
          rw [← map_fst_changed inOrder] at otherDistinct
          refine .record
            (fun name => ?_) fun field isField other isOther sameName => ?_
          · rw [← map_fst_changed inOrder fields,
              ← map_fst_changed inOrder others]
            exact (sameFields.map Prod.fst).mem_iff
          · have isChanged := sameFields.mem_iff.mp
              (List.mem_map_of_mem
                (f := fun field => (field.1, inOrder field.2)) isField)
            have isOtherChanged :=
              List.mem_map_of_mem
                (f := fun field => (field.1, inOrder field.2)) isOther
            have areEqual :=
              eq_of_sameName otherDistinct isChanged isOtherChanged sameName
            exact inductionHypothesis field isField
              (otherDocuments other isOther) (Prod.mk.inj areEqual).2

/--
The text of an object is put together from its fields in the order of their
names.
-/
theorem write_record (fields : List (String × Value)) :
    write (.record fields) =
      "\x7b" ++ String.intercalate ", "
        ((byName (fields.map fun field => (field.1, write field.2))).map
          fun (name, value) =>
          writeString name ++ ": " ++ value) ++ "\x7d" := by
  rw [write, writeFields_eq_map]
  rfl

/-- Documents that are the same have the same text. -/
theorem write_eq_of_sameDocument
    (sameDocument : SameDocument a b)
    (isDocument : IsDocument a)
    (alsoDocument : IsDocument b) :
    write a = write b := by
  induction sameDocument with
  | null | bool | int | text =>
      rfl
  | @list items others sameLength areSame inductionHypothesis =>
      cases isDocument with
      | list areDocuments =>
      cases alsoDocument with
      | list otherDocuments =>
          have sameTexts : items.map write = others.map write := by
            refine map_eq_map_iff_zip.mpr ⟨sameLength, fun pair isPair => ?_⟩
            obtain ⟨isItem, isOther⟩ := List.of_mem_zip isPair
            exact inductionHypothesis pair isPair (areDocuments _ isItem)
              (otherDocuments _ isOther)
          rw [write, write, writeItems_eq_map, writeItems_eq_map, sameTexts]
  | @record fields others sameNames areSame inductionHypothesis =>
      cases isDocument with
      | record distinct areDocuments =>
      cases alsoDocument with
      | record otherDistinct otherDocuments =>
          rw [← map_fst_changed write] at distinct otherDistinct
          have sameTexts :
              (fields.map fun field => (field.1, write field.2)).Perm
                (others.map fun field => (field.1, write field.2)) := by
            refine perm_of_sameNames distinct otherDistinct (fun name => ?_) ?_
            · rw [map_fst_changed, map_fst_changed]
              exact sameNames name
            · simp only [List.forall_mem_map]
              exact fun field isField other isOther sameName =>
                inductionHypothesis field isField other isOther sameName
                  (areDocuments field isField) (otherDocuments other isOther)
          rw [write_record, write_record, byName_eq_of_perm distinct sameTexts]

end Order

end EvmStorage.Json
