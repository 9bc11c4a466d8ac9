import EvmStorage.Address
import EvmStorage.Numeral

namespace EvmStorage.Key

/-!
# Keys as they are given

The keys of a mapping may be given in several spellings: a number as an
integer or as text, a byte string as bytes or as hex text, an address in any
letter case.  The form of a type says how its keys are brought into the one
spelling that is encoded.
-/

/-- How the keys of a type are read. -/
inductive Form where
  | string
  | bytes
  | address
  | bool
  | integer
  | fixedBytes
  | other
  deriving DecidableEq, Repr

/-- The form of the keys of a type, told by how its name begins. -/
def Form.ofName (name : String) : Form :=
  if name = "string" then
    .string
  else if name = "bytes" then
    .bytes
  else if name = "address" then
    .address
  else if name = "bool" then
    .bool
  else if name.startsWith "uint" || name.startsWith "int" then
    .integer
  else if name.startsWith "bytes" then
    .fixedBytes
  else
    .other

/-- The fault of a key that is no value of a type. -/
def invalid
    (name : String)
    (key : Value) :
    Except Fault α :=
  .error (.invalidKey (.invalid name key))

/-- The bytes of a text given as text or as its encoding. -/
def ofText (key : Value) : Except Fault Bytes :=
  match key with
  | .text s => .ok s.toUTF8.toList
  | .bytes content => .ok content
  | _ => invalid "string" key

/-- The bytes of a byte string given as bytes or as hex text. -/
def ofBytes (key : Value) : Except Fault Bytes :=
  match key with
  | .text s =>
      match Bytes.ofHex? s with
      | some content => .ok content
      | none => .error (.invalidKey (.notHex s))
  | .bytes content => .ok content
  | _ => invalid "bytes" key

/-- A key that may be the bytes of an address, with such bytes as hex text. -/
def withHexText : Value → Value
  | .bytes content => .text (Bytes.toMarkedHex content)
  | key => key

/-- The address that a key denotes, as checked text. -/
def ofAddress
    (hash : Digest)
    (key : Value) :
    Except Fault String :=
  match Address.ofValue (withHexText key) with
  | .ok content => .ok (Address.checksum hash content)
  | .error _ => invalid "address" (withHexText key)

/-- A key whose text, if it is one, writes an integer. -/
def ofNumber
    (name : String)
    (key : Value) :
    Except Fault Value :=
  match key with
  | .text s =>
      match Numeral.ofText? s with
      | some n => .ok (.int n)
      | none => invalid name key
  | _ => .ok key

/--
A key whose text, if it is one, writes bytes in hex digits; the empty text does
not.
-/
def ofFixedBytes
    (name : String)
    (key : Value) :
    Except Fault Value :=
  match key with
  | .text s =>
      match (Bytes.ofHex? s).filter fun _ => !s.isEmpty with
      | some content => .ok (.bytes content)
      | none => invalid name key
  | _ => .ok key

/-- A key in the spelling in which the keys of a type are encoded. -/
def coerce
    (hash : Digest)
    (name : String)
    (key : Value) :
    Except Fault Value :=
  match Form.ofName name with
  | .string => (ofText key).map .bytes
  | .bytes => (ofBytes key).map .bytes
  | .address => (ofAddress hash key).map .text
  | .bool => (ofNumber name key).map fun number => .bool number.truthy
  | .integer => ofNumber name key
  | .fixedBytes => ofFixedBytes name key
  | .other => .ok key

end EvmStorage.Key
