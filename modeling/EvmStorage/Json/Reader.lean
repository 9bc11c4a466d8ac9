import EvmStorage.Numeral
import EvmStorage.Value

namespace EvmStorage.Json

/-!
# Reading JSON

Documents follow the JSON grammar, with three more numbers `NaN`, `Infinity`
and `-Infinity`.  A number without fraction and exponent is an integer of any
size up to `Numeral.maxDecimalDigits` digits; every other number is a
floating-point number.  An object keeps its names in the order in which they
first appear, and a repeated name takes its last value.

Texts are made of whole characters: a document that writes half of a character
alone is not read.  How deep lists and objects may lie in one another is given
to the reader, since the bound comes from where it runs.
-/

/-- Why a text is not read as a document. -/
inductive Refusal where
  | malformed
  | oversizedInteger
  | halfCharacter
  | nestedTooDeep
  deriving DecidableEq, Repr

/-- Whether a character may stand between the parts of a document. -/
def isBlank (c : Char) : Bool :=
  c == ' ' || c == '\t' || c == '\n' || c == '\r'

/-- A text without the blanks in front. -/
def skipBlanks (s : List Char) : List Char :=
  s.dropWhile isBlank

/-- The rest of a text behind an expected beginning. -/
def after? : (expected : List Char) → List Char → Option (List Char)
  | [], rest => some rest
  | _ :: _, [] => none
  | e :: expected, c :: rest => if e = c then after? expected rest else none

/-- The number written by four hex digits. -/
def unit? (a b c d : Char) : Option Nat := do
  let digits ← [a, b, c, d].mapM hexValue?
  return Numeral.ofDigits 16 digits

/-- The code point that a letter behind a backslash stands for. -/
def escaped? : Char → Option Nat
  | '"' => some 0x22
  | '\\' => some 0x5c
  | '/' => some 0x2f
  | 'b' => some 0x08
  | 'f' => some 0x0c
  | 'n' => some 0x0a
  | 'r' => some 0x0d
  | 't' => some 0x09
  | _ => none

/--
The code points of a string up to its closing quote, and the text behind it.
-/
def scanString? : List Char → Option (List Nat × List Char)
  | [] => none
  | '"' :: rest => some ([], rest)
  | '\\' :: 'u' :: a :: b :: c :: d :: rest => do
      let point ← unit? a b c d
      let (points, behind) ← scanString? rest
      return (point :: points, behind)
  | '\\' :: c :: rest => do
      let point ← escaped? c
      let (points, behind) ← scanString? rest
      return (point :: points, behind)
  | c :: rest =>
      if c.toNat < 0x20 ∨ c = '\\' then
        none
      else do
        let (points, behind) ← scanString? rest
        return (c.toNat :: points, behind)

/-- The character of a code point, if it is not half of a character. -/
def character? (point : Nat) : Option Char :=
  if 0xd800 ≤ point ∧ point < 0xe000 then none else some (Char.ofNat point)

/--
Joins the two halves of characters beyond the first plane, if no half is alone.
-/
def joinHalves? : List Nat → Option (List Char)
  | [] => some []
  | [point] => do
      let c ← character? point
      return [c]
  | high :: low :: rest =>
      if 0xd800 ≤ high ∧ high < 0xdc00 ∧ 0xdc00 ≤ low ∧ low < 0xe000 then do
        let behind ← joinHalves? rest
        return Char.ofNat
          (0x10000 + (high - 0xd800) * 0x400 + (low - 0xdc00)) ::
          behind
      else do
        let c ← character? high
        let behind ← joinHalves? (low :: rest)
        return c :: behind

/-- Whether a character is one of the ten Latin digits. -/
def isDigit (c : Char) : Bool :=
  '0' ≤ c && c ≤ '9'

/-- The number that Latin digits write. -/
def natOf (digits : List Char) : Nat :=
  Numeral.ofDigits 10 (digits.map fun c => c.toNat - '0'.toNat)

/--
The digits of a fraction, if a point and a digit follow, and the text behind.
-/
def scanFraction : List Char → Option (List Char) × List Char
  | '.' :: c :: rest =>
      if isDigit c then
        (some (c :: rest.takeWhile isDigit), rest.dropWhile isDigit)
      else
        (none, '.' :: c :: rest)
  | s => (none, s)

/-- The exponent that follows its letter, if it has a digit. -/
def signedExponent? : List Char → Option (Int × List Char)
  | '-' :: rest =>
      if (rest.takeWhile isDigit).isEmpty then
        none
      else
        some (-(natOf (rest.takeWhile isDigit) : Int), rest.dropWhile isDigit)
  | s =>
      let digits := match s with
        | '+' :: rest => rest
        | _ => s
      if (digits.takeWhile isDigit).isEmpty then
        none
      else
        some ((natOf (digits.takeWhile isDigit) : Int),
          digits.dropWhile isDigit)

/-- The exponent of a number, if there is one, and the text behind. -/
def scanExponent : List Char → Option Int × List Char
  | c :: rest =>
      if c = 'e' ∨ c = 'E' then
        match signedExponent? rest with
        | some (exponent, behind) => (some exponent, behind)
        | none => (none, c :: rest)
      else
        (none, c :: rest)
  | [] => (none, [])

/--
The digits before the point: a zero alone, or digits that do not begin with
one.
-/
def scanWhole? : List Char → Option (List Char × List Char)
  | '0' :: rest => some (['0'], rest)
  | c :: rest =>
      if isDigit c then
        some (c :: rest.takeWhile isDigit, rest.dropWhile isDigit)
      else
        none
  | [] => none

/-- A number without its sign, and the text behind. -/
def readNumber
    (negative : Bool)
    (s : List Char) :
    Except Refusal (Value × List Char) :=
  match scanWhole? s with
  | none => .error .malformed
  | some (whole, behindWhole) =>
      let (fraction, behindFraction) := scanFraction behindWhole
      let (exponent, rest) := scanExponent behindFraction
      match fraction, exponent with
      | none, none =>
          if whole.length ≤ Numeral.maxDecimalDigits then
            let n : Int := natOf whole
            .ok (.int (if negative then -n else n), rest)
          else
            .error .oversizedInteger
      | _, _ =>
          let places := fraction.getD []
          let digits := natOf (whole ++ places)
          let power := exponent.getD 0 - places.length
          .ok (.float (Binary64.ofDecimal negative digits power), rest)

/-- The fixed words of the grammar and the values they stand for. -/
def words : List (List Char × Value) :=
  [
    ("null".toList, .null),
    ("true".toList, .bool true),
    ("false".toList, .bool false),
    ("NaN".toList, .float .nan),
    ("Infinity".toList, .float (.infinite false)),
    ("-Infinity".toList, .float (.infinite true))
  ]

/-- A fixed word at the beginning of a text, and the text behind. -/
def readWord? (s : List Char) : Option (Value × List Char) :=
  words.findSome? fun (word, value) => (after? word s).map fun rest =>
    (value, rest)

/-- A fixed word or a number at the beginning of a text, and the text behind. -/
def readAtom (s : List Char) : Except Refusal (Value × List Char) :=
  match readWord? s with
  | some found => .ok found
  | none =>
      match s with
      | '-' :: rest => readNumber true rest
      | _ => readNumber false s

/-- A string behind its opening quote, and the text behind. -/
def readString (s : List Char) : Except Refusal (String × List Char) :=
  match scanString? s with
  | none => .error .malformed
  | some (points, rest) =>
      match joinHalves? points with
      | some content => .ok (String.ofList content, rest)
      | none => .error .halfCharacter

/-- The levels that are left inside a list or an object, if it may lie here. -/
def inside (levels : Nat) : Except Refusal Nat :=
  match levels with
  | 0 => .error .nestedTooDeep
  | fewer + 1 => .ok fewer

mutual

/--
A value at the beginning of a text, and the text behind.

The first argument bounds how deep lists and objects may lie in one another,
the second one the number of steps; twice the length of the text is enough.
-/
def readValue :
    Nat →
    Nat →
    List Char →
    Except Refusal (Value × List Char)
  | _, 0, _ => .error .malformed
  | levels, steps + 1, s =>
      match s with
      | '"' :: rest => do
          let (content, behind) ← readString rest
          return (.text content, behind)
      | '[' :: rest => do
          let fewer ← inside levels
          match skipBlanks rest with
          | ']' :: behind => return (.list [], behind)
          | items =>
              let (items, behind) ← readItems fewer steps items
              return (.list items, behind)
      | '\x7b' :: rest => do
          let fewer ← inside levels
          match skipBlanks rest with
          | '\x7d' :: behind => return (.record [], behind)
          | fields =>
              let (fields, behind) ← readFields fewer steps [] fields
              return (.record fields, behind)
      | _ => readAtom s

/-- The items of an array up to its closing bracket, and the text behind. -/
def readItems :
    Nat →
    Nat →
    List Char →
    Except Refusal (List Value × List Char)
  | _, 0, _ => .error .malformed
  | levels, steps + 1, s => do
      let (item, behindItem) ← readValue levels steps s
      match skipBlanks behindItem with
      | ']' :: rest => return ([item], rest)
      | ',' :: rest =>
          let (items, behind) ← readItems levels steps (skipBlanks rest)
          return (item :: items, behind)
      | _ => .error .malformed

/--
The fields of an object up to its closing brace, added to those before, and the
text behind.
-/
def readFields :
    Nat →
    Nat →
    List (String × Value) →
    List Char →
    Except Refusal (List (String × Value) × List Char)
  | _, 0, _, _ => .error .malformed
  | levels, steps + 1, before, s =>
      match s with
      | '"' :: nameAndRest => do
          let (name, behindName) ← readString nameAndRest
          match skipBlanks behindName with
          | ':' :: behindColon =>
              let (value, behindValue) ←
                readValue levels steps (skipBlanks behindColon)
              let fields := Value.setField name value before
              match skipBlanks behindValue with
              | '\x7d' :: rest => return (fields, rest)
              | ',' :: rest => readFields levels steps fields (skipBlanks rest)
              | _ => .error .malformed
          | _ => .error .malformed
      | _ => .error .malformed

end

/--
The value of a whole document whose parts lie in one another only so deep.
-/
def readWithin
    (levels : Nat)
    (document : String) :
    Except Refusal Value := do
  let s := skipBlanks document.toList
  let (value, rest) ← readValue levels (2 * s.length + 1) s
  if (skipBlanks rest).isEmpty then
    return value
  else
    .error .malformed

/-- How deep the parts of a document may lie in one another as a rule. -/
def usualLevels : Nat :=
  1000

/--
The value of a whole document, its parts in one another as deep as the rule is.
-/
def read (document : String) : Except Refusal Value :=
  readWithin usualLevels document

end EvmStorage.Json
