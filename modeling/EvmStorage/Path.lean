import EvmStorage.Fault
import EvmStorage.Text.Blank
import EvmStorage.Text.WordChar

namespace EvmStorage.Path

/-!
# Path texts

A path names a value step by step: the name of a variable, then names of
members behind dots, and keys or indexes in brackets.  A bracket ends at the
first closing bracket; blanks around what it holds are dropped, and then
quotes on either side.  Positions in messages count characters from zero.
-/

/-- One part of a path. -/
inductive Segment where
  | name (label : String)
  | bracket (content : String)
  deriving DecidableEq, Repr

/-- Whether a name may begin with a character. -/
def isNameStart (c : Char) : Bool :=
  c.isAlpha || c == '_' || c == '$'

/-- Whether a name may go on with a character. -/
def isNamePart (c : Char) : Bool :=
  Text.isWordChar c || c == '$'

/-- Whether a character is a quote. -/
def isQuote (c : Char) : Bool :=
  c == '\x27' || c == '"'

/-- A text without the quotes at its two ends. -/
def stripQuotes (s : List Char) : List Char :=
  ((s.dropWhile isQuote).reverse.dropWhile isQuote).reverse

/-- What a bracket says, from the characters inside it. -/
def bracketContent (s : List Char) : String :=
  String.ofList (stripQuotes (Text.strip s))

/--
A part of a path, with the text behind it: less than the text it was found in.
-/
structure Scanned (s : List Char) where
  segment : Segment
  rest : List Char
  shorter : rest.length < s.length

/-- A part of a path that stands behind one more character. -/
def Scanned.behind
    (c : Char)
    {s : List Char}
    (scanned : Scanned s) :
    Scanned (c :: s) where
  segment := scanned.segment
  rest := scanned.rest
  shorter := by
    have := scanned.shorter
    simp only [List.length_cons]
    omega

/-- The name that a text begins with. -/
def scanName? : (s : List Char) → Option (Scanned s)
  | [] => none
  | c :: rest =>
      if isNameStart c then
        some {
          segment := .name (String.ofList (c :: rest.takeWhile isNamePart))
          rest := rest.dropWhile isNamePart
          shorter := Nat.lt_succ_of_le
            (List.dropWhile_suffix isNamePart).length_le
        }
      else
        none

/-- The bracket whose inside a text begins with. -/
def scanBracket? (s : List Char) : Option (Scanned s) :=
  match found : s.dropWhile (· != ']') with
  | [] => none
  | _ :: rest =>
      some {
        segment := .bracket (bracketContent (s.takeWhile (· != ']')))
        rest := rest
        shorter := by
          have shorter := (List.dropWhile_suffix (l := s) (· != ']')).length_le
          rw [found] at shorter
          exact shorter
      }

/-- The part that stands at the beginning of a text, at a position of a path. -/
def scanSegment
    (path : String)
    (position : Nat)
    (isFirst : Bool)
    (c : Char)
    (rest : List Char) :
    Except Fault (Scanned (c :: rest)) :=
  let unexpected : Except Fault (Scanned (c :: rest)) :=
    .error (.notFound (.pathUnexpected c position path))
  if c = '[' then
    match scanBracket? rest with
    | none => .error (.notFound (.pathUnterminated position path))
    | some scanned =>
        if scanned.segment = .bracket "" then
          .error (.notFound (.pathEmptyBrackets position path))
        else
          .ok (scanned.behind c)
  else if isFirst then
    match scanName? (c :: rest) with
    | none => unexpected
    | some scanned => .ok scanned
  else if c = '.' then
    match scanName? rest with
    | none => unexpected
    | some scanned => .ok (scanned.behind c)
  else
    unexpected

/-- The parts of the rest of a path, from a position on. -/
def segmentsFrom
    (path : String)
    (position : Nat)
    (isFirst : Bool)
    (s : List Char) :
    Except Fault (List Segment) :=
  match s with
  | [] => .ok []
  | c :: rest =>
      match scanSegment path position isFirst c rest with
      | .error fault => .error fault
      | .ok scanned => do
          let taken := rest.length + 1 - scanned.rest.length
          let later ← segmentsFrom path (position + taken) false scanned.rest
          return scanned.segment :: later
termination_by s.length
decreasing_by exact scanned.shorter

/-- The parts of a path, of which there is at least one. -/
def segments (path : String) : Except Fault (List Segment) := do
  let found ← segmentsFrom path 0 true path.toList
  if found.isEmpty then
    .error (.notFound .pathEmpty)
  else
    return found

end EvmStorage.Path
