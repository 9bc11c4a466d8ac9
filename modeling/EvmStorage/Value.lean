import EvmStorage.Binary64
import EvmStorage.Bytes

namespace EvmStorage

/-!
# Values

One type holds everything that has no fixed type of its own: the parts of a
JSON document, the keys and indexes that a caller gives, the raw words that a
provider returns, the blocks that are asked for, and the results of decoding.
JSON documents have no byte strings and no structs.  The fields of a record
have texts as their names; the members of a decoded struct stand under the
labels that the layout gives them, which may be numbers as well.
-/

/-- A value of any kind. -/
inductive Value where
  | null
  | bool (flag : Bool)
  | int (n : Int)
  | float (x : Binary64)
  | text (s : String)
  | bytes (content : Bytes)
  | list (items : List Value)
  | record (fields : List (String × Value))
  | struct (members : List (Value × Value))
  deriving Inhabited

namespace Value

mutual

/-- Whether two values are the same. -/
def same : Value → Value → Bool
  | .null, .null => true
  | .bool a, .bool b => a == b
  | .int a, .int b => a == b
  | .float a, .float b => a == b
  | .text a, .text b => a == b
  | .bytes a, .bytes b => a == b
  | .list as, .list bs => sameItems as bs
  | .record as, .record bs => sameFields as bs
  | .struct as, .struct bs => sameMembers as bs
  | _, _ => false
termination_by structural a => a

/-- Whether two lists hold the same values. -/
def sameItems : List Value → List Value → Bool
  | [], [] => true
  | a :: as, b :: bs => same a b && sameItems as bs
  | _, _ => false
termination_by structural as => as

/-- Whether two lists hold the same values under the same names. -/
def sameFields : List (String × Value) → List (String × Value) → Bool
  | [], [] => true
  | (m, a) :: as, (n, b) :: bs => m == n && same a b && sameFields as bs
  | _, _ => false
termination_by structural as => as

/-- Whether two lists hold the same values under the same labels. -/
def sameMembers : List (Value × Value) → List (Value × Value) → Bool
  | [], [] => true
  | (m, a) :: as, (n, b) :: bs => same m n && same a b && sameMembers as bs
  | _, _ => false
termination_by structural as => as

end

mutual

/-- Values that are found the same are equal. -/
theorem eq_of_same : ∀ {a b : Value}, same a b = true → a = b
  | .null, b, h => by cases b <;> simp_all [same]
  | .bool _, b, h => by cases b <;> simp_all [same]
  | .int _, b, h => by cases b <;> simp_all [same]
  | .float _, b, h => by cases b <;> simp_all [same]
  | .text _, b, h => by cases b <;> simp_all [same]
  | .bytes _, b, h => by cases b <;> simp_all [same]
  | .list as, b, h => by
      cases b with
      | list bs =>
          simp only [same] at h
          rw [eq_of_sameItems h]
      | _ => simp [same] at h
  | .record as, b, h => by
      cases b with
      | record bs =>
          simp only [same] at h
          rw [eq_of_sameFields h]
      | _ => simp [same] at h
  | .struct as, b, h => by
      cases b with
      | struct bs =>
          simp only [same] at h
          rw [eq_of_sameMembers h]
      | _ => simp [same] at h

/-- Lists that are found the same are equal. -/
theorem eq_of_sameItems :
    ∀ {as bs : List Value}, sameItems as bs = true → as = bs
  | [], [], _ => rfl
  | [], _ :: _, h => by simp [sameItems] at h
  | _ :: _, [], h => by simp [sameItems] at h
  | a :: as, b :: bs, h => by
      simp only [sameItems, Bool.and_eq_true] at h
      rw [eq_of_same h.1, eq_of_sameItems h.2]

/-- Lists of named values that are found the same are equal. -/
theorem eq_of_sameFields :
    ∀ {as bs : List (String × Value)}, sameFields as bs = true → as = bs
  | [], [], _ => rfl
  | [], _ :: _, h => by simp [sameFields] at h
  | _ :: _, [], h => by simp [sameFields] at h
  | (m, a) :: as, (n, b) :: bs, h => by
      simp only [sameFields, Bool.and_eq_true, beq_iff_eq] at h
      obtain ⟨⟨sameName, sameValue⟩, sameRest⟩ := h
      rw [sameName, eq_of_same sameValue, eq_of_sameFields sameRest]

/-- Lists of labelled values that are found the same are equal. -/
theorem eq_of_sameMembers :
    ∀ {as bs : List (Value × Value)}, sameMembers as bs = true → as = bs
  | [], [], _ => rfl
  | [], _ :: _, h => by simp [sameMembers] at h
  | _ :: _, [], h => by simp [sameMembers] at h
  | (m, a) :: as, (n, b) :: bs, h => by
      simp only [sameMembers, Bool.and_eq_true] at h
      obtain ⟨⟨sameLabel, sameValue⟩, sameRest⟩ := h
      rw [eq_of_same sameLabel, eq_of_same sameValue,
        eq_of_sameMembers sameRest]

end

mutual

/-- A value is found the same as itself. -/
theorem same_self : ∀ (a : Value), same a a = true
  | .null => rfl
  | .bool _ => by simp [same]
  | .int _ => by simp [same]
  | .float _ => by simp [same]
  | .text _ => by simp [same]
  | .bytes _ => by simp [same]
  | .list as => by simp only [same, sameItems_self as]
  | .record as => by simp only [same, sameFields_self as]
  | .struct as => by simp only [same, sameMembers_self as]

/-- A list is found the same as itself. -/
theorem sameItems_self : ∀ (as : List Value), sameItems as as = true
  | [] => rfl
  | a :: as => by
    simp only [sameItems, same_self a, sameItems_self as, Bool.and_self]

/-- A list of named values is found the same as itself. -/
theorem sameFields_self :
    ∀ (as : List (String × Value)), sameFields as as = true
  | [] => rfl
  | (m, a) :: as => by
      simp only [sameFields, same_self a, sameFields_self as, beq_self_eq_true,
        Bool.and_self]

/-- A list of labelled values is found the same as itself. -/
theorem sameMembers_self :
    ∀ (as : List (Value × Value)), sameMembers as as = true
  | [] => rfl
  | (m, a) :: as => by
      simp only [sameMembers, same_self m, same_self a, sameMembers_self as,
        Bool.and_self]

end

instance : DecidableEq Value := fun a b =>
  decidable_of_iff (same a b = true) ⟨eq_of_same, fun h => h ▸ same_self a⟩

/-- Whether a value counts as true: zeros and empty values do not. -/
def truthy : Value → Bool
  | .null => false
  | .bool flag => flag
  | .int n => n != 0
  | .float x => !x.isZero
  | .text s => !s.isEmpty
  | .bytes content => !content.isEmpty
  | .list items => !items.isEmpty
  | .record fields => !fields.isEmpty
  | .struct members => !members.isEmpty

/-- The name of the kind of a value, as messages give it. -/
def kindName : Value → String
  | .null => "NoneType"
  | .bool _ => "bool"
  | .int _ => "int"
  | .float _ => "float"
  | .text _ => "str"
  | .bytes _ => "bytes"
  | .list _ => "list"
  | .record _ | .struct _ => "dict"

/-- The value of a field of a record. -/
def field?
    (fields : List (String × Value))
    (name : String) :
    Option Value :=
  fields.lookup name

/-- A record with a field set: a name that is there keeps its place. -/
def setField
    (name : String)
    (value : Value) :
    List (String × Value) → List (String × Value)
  | [] => [(name, value)]
  | (other, old) :: rest =>
      if other = name then
        (name, value) :: rest
      else
        (other, old) :: setField name value rest

end Value

end EvmStorage
