import EvmStorage.Fault
import EvmStorage.Keccak

namespace EvmStorage.Address

/-!
# Addresses

An address has twenty bytes.  Its text is checked by its letter case: the hash
of the forty lower-case digits says which letters are capitals.
-/

/-- The number of bytes of an address. -/
def size : Nat :=
  20

/-- The bytes of a text of ASCII characters. -/
def asciiBytes (s : List Char) : Bytes :=
  s.map fun c => UInt8.ofNat c.toNat

/--
The hex digit of a 256-bit number at a place counted from its most significant
one.
-/
def digitOf
    (n place : Nat) :
    Nat :=
  n / Nat.pow 16 (63 - place) % 16

/--
A hex digit as a capital if the digit of the hash at its place is in the upper
half.
-/
def casedDigit
    (pattern : Nat)
    (digit : Char)
    (place : Nat) :
    Char :=
  if 8 ≤ digitOf pattern place then digit.toUpper else digit

/-- The text of an address, in the letter case that checks it. -/
def checksum
    (hash : Digest)
    (content : Bytes) :
    String :=
  let digits := Bytes.hexDigits content
  let pattern := hash (asciiBytes digits)
  "0x" ++ String.ofList (digits.zipIdx.map fun (digit, place) =>
    casedDigit pattern digit place)

/--
The address that forty hex digits write, in any letter case, with or without a
mark.
-/
def ofText? (text : String) : Option Bytes :=
  let digits := dropHexMark text.toList
  if digits.length = 2 * size then
    Bytes.ofHexDigits? digits
  else
    none

/-- The address that a byte string is, if it has the size of one. -/
def ofBytes? (content : Bytes) : Option Bytes :=
  if content.length = size then some content else none

/--
The address that a number is, if its hex digits without leading zeros are
forty.
-/
def ofInt? (n : Int) : Option Bytes :=
  if Int.pow 16 (2 * size - 1) ≤ n ∧ n < Int.pow 16 (2 * size) then
    some (Bytes.ofNat size n.toNat)
  else
    none

/-- The address that a value denotes. -/
def ofValue (value : Value) : Except Fault Bytes :=
  let orMalformed (found : Option Bytes) : Except Fault Bytes :=
    match found with
    | some content => .ok content
    | none => .error (.misuse .malformedAddress)
  match value with
  | .text s => orMalformed (ofText? s)
  | .bytes content => orMalformed (ofBytes? content)
  | .int n => orMalformed (ofInt? n)
  | .bool _ => orMalformed none
  | _ => .error (.misuse (.addressOfKind value.kindName))

end EvmStorage.Address
