import EvmStorage.Layout

namespace EvmStorage

/-!
# What a label says of a type

The label of an integer, a byte string of fixed size or an enumeration tells
how the values of the type are decoded.  For an array the size is that of its
elements, taken from the table of types if there is one.
-/

/-- What the label of a type says. -/
structure TypeLabel where
  isUnsigned : Bool
  kind : Label.DataKind
  bits : Int
  arrayLength : Option Int
  deriving DecidableEq, Repr

namespace TypeEntry

/-- The label of a type, which has to be a text. -/
def labelText (type : TypeEntry) : Except Fault String :=
  match type.label with
  | .text label => .ok label
  | label => .error (.misuse (.labelNotText label))

/-- The width in bits that the digits of a label write. -/
def labelBits (parts : Label.Parts) : Except Fault Int := do
  let size ← Label.numberOf parts.size
  return match parts.kind with
  | .int => size
  | .bytes => size * 8

/-- The length that the last dimension of a label writes, if it has digits. -/
def labelLength (parts : Label.Parts) : Except Fault (Option Int) :=
  match parts.dimension with
  | some (digit :: digits) => do
      let length ← Label.numberOf (digit :: digits)
      return some length
  | _ => .ok none

/--
What the label of a type says, with the size of elements from the table if it
is given.
-/
def typeLabel
    (type : TypeEntry)
    (layout : Option Layout) :
    Except Fault TypeLabel := do
  let label ← type.labelText
  if label.startsWith "enum " then
    return {
      isUnsigned := true
      kind := .int
      bits := type.size * 8
      arrayLength := none
    }
  else
    match Label.parts? label with
    | none => .error (.unsupported (.dataType label))
    | some parts =>
        let bits ←
          match type.base, layout with
          | some base, some layout => do
              let size ← layout.sizeOf base
              pure (size * 8)
          | _, _ => labelBits parts
        let arrayLength ← labelLength parts
        return {
          isUnsigned := parts.isUnsigned
          kind := parts.kind
          bits := bits
          arrayLength := arrayLength
        }

end TypeEntry

end EvmStorage
