import EvmStorage.Key.Form
import EvmStorage.TwosComplement
import EvmStorage.Word

namespace EvmStorage.Key

/-!
# Key types that fill one word

Keys of every type but texts and byte strings are encoded as one word of 32
bytes: numbers and addresses with zeros in front, negative numbers in two's
complement, byte strings of fixed size with zeros behind.
-/

/-- The types whose values are encoded as one word. -/
inductive WordType where
  | address
  | bool
  | uint (bits : Nat)
  | int (bits : Nat)
  | fixedBytes (size : Nat)
  deriving DecidableEq, Repr

/--
Whether a text writes a positive number in decimal digits without leading
zeros.
-/
def isNumber (s : List Char) : Bool :=
  match s with
  | [] => false
  | first :: _ => first != '0' && s.all Char.isDigit

/-- A positive number in decimal digits without leading zeros. -/
def sizeOf? (s : List Char) : Option Nat :=
  if isNumber s then Numeral.decimal? s else none

/--
The width in bits behind the name of an integer type; without one it is 256.
-/
def bitsOf? (s : List Char) : Option Nat :=
  if s.isEmpty then
    some 256
  else
    (sizeOf? s).filter fun bits => bits % 8 = 0 ∧ bits ≤ 256

/--
Whether a text is empty, a positive number, or two of them with a cross
between.
-/
def isMeasure (s : List Char) : Bool :=
  let first := s.takeWhile Char.isDigit
  match s.dropWhile Char.isDigit with
  | [] => s.isEmpty || isNumber first
  | 'x' :: second => isNumber first && isNumber second
  | _ => false

/-- The number of bytes behind the name of a type of byte strings. -/
def bytesOf? (s : List Char) : Option Nat :=
  (sizeOf? s).filter (· ≤ 32)

namespace WordType

/--
The elementary type with a given name.

Numbers behind the name of the truth values change nothing.  Only elementary
types are told by their names here; arrays, tuples and fixed-point numbers have
none.
-/
def ofName? (name : String) : Option WordType :=
  match name.toList with
  | 'u' :: 'i' :: 'n' :: 't' :: size => (bitsOf? size).map .uint
  | 'i' :: 'n' :: 't' :: size => (bitsOf? size).map .int
  | 'b' :: 'y' :: 't' :: 'e' :: 's' :: size => (bytesOf? size).map .fixedBytes
  | 'b' :: 'o' :: 'o' :: 'l' :: measure =>
    if isMeasure measure then some .bool else none
  | _ =>
      if name = "address" then
        some .address
      else if name = "function" then
        some (.fixedBytes 24)
      else
        none

/--
The word of a value of a type; values that do not belong to the type have none.
-/
def encode? : WordType → Value → Option Bytes
  | .address, .text s => (Address.ofText? s).map fun content =>
    content.leftpad slotSize 0
  | .bool, .bool flag => some (Word.ofNat flag.toNat)
  | .uint bits, .int n =>
    if 0 ≤ n ∧ n < Int.pow 2 bits then some (Word.ofNat n.toNat) else none
  | .int bits, .int n =>
      if -Int.pow 2 (bits - 1) ≤ n ∧ n < Int.pow 2 (bits - 1) then
        some (Word.ofNat (n % slotModulus).toNat)
      else
        none
  | .fixedBytes size, .bytes content =>
      if content.length ≤ size then some (content.rightpad slotSize 0) else none
  | _, _ => none

end WordType

end EvmStorage.Key
