import EvmStorage.Value

namespace EvmStorage.Value

/-!
# Equality of values

Values of different kinds may be equal: numbers are compared by their worth,
truth values count as zero and one, and zeros of both signs are one number.
Records are equal if they have equal values under the same names, in whatever
order.  What is not a number is equal to nothing; as a label it is still one
label.
-/

/-- The worth of a value that counts as a finite number. -/
def number? : Value → Option Dyadic
  | .bool flag => some (Dyadic.ofInt flag.toInt)
  | .int n => some (Dyadic.ofInt n)
  | .float x => x.toDyadic?
  | _ => none

/-- Whether two values count as the same finite number. -/
def sameNumber (a b : Value) : Bool :=
  match a.number?, b.number? with
  | some m, some n => m == n
  | _, _ => false

/-- Whether two values are one label: the same value, or the same number. -/
def sameLabel (a b : Value) : Bool :=
  same a b || sameNumber a b

/--
Whether things can be looked up by a value: lists and what has fields cannot be
a label.
-/
def isLabel : Value → Bool
  | .list _ | .record _ | .struct _ => false
  | _ => true

/-- Whether a value is the floating-point value that is not a number. -/
def isNotNumber : Value → Bool
  | .float .nan => true
  | _ => false

mutual

/-- Whether two values are equal. -/
def equals : Value → Value → Bool
  | .list as, .list bs => equalItems as bs
  | .record as, .record bs => as.length == bs.length && equalFields as bs
  | a, b => !a.isNotNumber && sameLabel a b
termination_by structural a => a

/-- Whether two lists hold equal values. -/
def equalItems : List Value → List Value → Bool
  | [], [] => true
  | a :: as, b :: bs => equals a b && equalItems as bs
  | _, _ => false
termination_by structural as => as

/--
Whether all fields of a record are equal to those of the same names in another
one.
-/
def equalFields : List (String × Value) → List (String × Value) → Bool
  | [], _ => true
  | (name, a) :: as, bs =>
      (match field? bs name with
        | some b => equals a b
        | none => false) && equalFields as bs
termination_by structural as => as

end

/--
The members of a struct with one set: a label that is there keeps its place and
spelling.
-/
def setMember (label value : Value) :
    List (Value × Value) → List (Value × Value)
  | [] => [(label, value)]
  | (other, old) :: rest =>
      if sameLabel other label then
        (other, value) :: rest
      else
        (other, old) :: setMember label value rest

/-- Texts are one label exactly if they are the same text. -/
@[simp]
theorem sameLabel_text (s t : String) :
    sameLabel (.text s) (.text t) = (s == t) := by
  simp [sameLabel, same, sameNumber, number?]

/-- Texts are equal exactly if they are the same text. -/
@[simp]
theorem equals_text (s t : String) : equals (.text s) (.text t) = (s == t) := by
  simp [equals, isNotNumber]

end EvmStorage.Value
