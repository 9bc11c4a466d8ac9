namespace EvmStorage

/-!
# Byte strings

Byte strings are lists of bytes.  Numbers are read from them and written to
them with the most significant byte first, and their hex text has two
lower-case digits for each byte.
-/

/-- A byte string. -/
abbrev Bytes := List UInt8

/-- The value of a hex digit in either letter case. -/
def hexValue? (c : Char) : Option Nat :=
  if '0' ≤ c ∧ c ≤ '9' then
    some (c.toNat - '0'.toNat)
  else if 'a' ≤ c ∧ c ≤ 'f' then
    some (c.toNat - 'a'.toNat + 10)
  else if 'A' ≤ c ∧ c ≤ 'F' then
    some (c.toNat - 'A'.toNat + 10)
  else
    none

/-- The lower-case hex digit of a number below sixteen. -/
def hexDigit (n : Nat) : Char :=
  Nat.digitChar (n % 16)

/-- A text without the two characters `0x` or `0X` it may begin with. -/
def dropHexMark : List Char → List Char
  | '0' :: 'x' :: rest => rest
  | '0' :: 'X' :: rest => rest
  | text => text

namespace Bytes

/--
The number that a byte string writes with its most significant byte first.
-/
def toNat (bytes : Bytes) : Nat :=
  bytes.foldl (fun total byte => total * 256 + byte.toNat) 0

/-- The last `width` base-256 digits of a number, most significant first. -/
def ofNat : (width : Nat) → Nat → Bytes
  | 0, _ => []
  | width + 1, n => ofNat width (n / 256) ++ [UInt8.ofNat n]

/-- The hex digits of a byte string. -/
def hexDigits (bytes : Bytes) : List Char :=
  bytes.flatMap fun byte => [hexDigit (byte.toNat / 16), hexDigit byte.toNat]

/-- The hex text of a byte string, without a mark in front. -/
def toHex (bytes : Bytes) : String :=
  String.ofList (hexDigits bytes)

/-- The hex text of a byte string behind `0x`. -/
def toMarkedHex (bytes : Bytes) : String :=
  "0x" ++ toHex bytes

/-- The bytes written by an even number of hex digits. -/
def ofHexDigits? : List Char → Option Bytes
  | [] => some []
  | [_] => none
  | high :: low :: rest => do
      let upper ← hexValue? high
      let lower ← hexValue? low
      let bytes ← ofHexDigits? rest
      return UInt8.ofNat (upper * 16 + lower) :: bytes

/--
The bytes of a hex text with or without its mark.

An odd number of digits is read as if a zero stood in front.
-/
def ofHex? (text : String) : Option Bytes :=
  let digits := dropHexMark text.toList
  if digits.length % 2 = 0 then
    ofHexDigits? digits
  else
    ofHexDigits? ('0' :: digits)

end Bytes

end EvmStorage
