import EvmStorage.Label

namespace EvmStorage.Command

/-!
# Arguments of the storage reader

The reader takes a layout file, an address and at least one path, in this
order, and two options with a value that may stand between them.  The name of
an option may be shortened as long as it is told apart from the others, and
its value may follow behind an equals sign.  Two dashes that stand alone end
the options.  Words between two options are taken together: a run of them
fills as many of the open places as it can, and what it cannot fill is an
error.

What fills a place or gives an option its value is a list of words, from which
the first two dashes are dropped.  A list of one word counts as that word; one
that nothing is left of stays an empty list.
-/

/-- What the storage reader is asked to do. -/
structure Arguments where
  layout : String
  address : String
  paths : List String
  block : Option Value
  rpc : Option Value
  deriving DecidableEq

namespace Arguments

/-- The options that have a value. -/
inductive OptionName where
  | block
  | rpc
  deriving DecidableEq, Repr

/-- What one argument is. -/
inductive Token where
  | word (s : String)
  | option (name : OptionName) (given : Option String)
  | help
  | malformed
  | unknown
  deriving DecidableEq, Repr

/-- The long names of the options; no value belongs to the call for help. -/
def longNames : List (List Char × Option OptionName) :=
  [
    ("--help".toList, none),
    ("--block".toList, some .block),
    ("--rpc".toList, some .rpc)
  ]

/-- A text up to its first equals sign, and what follows behind one. -/
def splitValue (s : List Char) : List Char × Option (List Char) :=
  match s.dropWhile (· != '=') with
  | [] => (s, none)
  | _ :: value => (s.takeWhile (· != '='), some value)

/-- Whether all characters of a text that is not empty are decimal digits. -/
def isDigits (s : List Char) : Bool :=
  !s.isEmpty && s.all Label.isDigit

/-- Whether a text behind a dash makes a negative number of it. -/
def isMagnitude (s : List Char) : Bool :=
  let number := Label.dropLineEnd s
  isDigits number ||
    match number.dropWhile Label.isDigit with
    | '.' :: fraction => isDigits fraction
    | _ => false

/-- What an argument is that begins with two dashes, if it names an option. -/
def longOption? (s : List Char) : Option Token :=
  let (name, value) := splitValue s
  let candidates : List (List Char × Option OptionName) :=
    match longNames.filter fun entry => entry.1 = name with
    | [] => longNames.filter fun entry => name.isPrefixOf entry.1
    | exact => exact
  match candidates with
  | [] => none
  | [(_, some option)] => some (.option option (value.map String.ofList))
  | [(_, none)] => if value.isNone then some .help else some .malformed
  | _ => some .malformed

/-- Whether a text calls for help with every letter. -/
def isHelpOnly (s : List Char) : Bool :=
  s.all (· == 'h')

/--
What an argument is that begins with a dash and the letter h, from what stands
behind.

Short options may stand together, behind an equals sign as well, so that
letters behind are options of their own; only the call for help is one.
-/
def shortHelp (behind : List Char) : Token :=
  let callsForHelp :=
    match behind with
    | '=' :: letters => !letters.isEmpty && isHelpOnly letters
    | letters => isHelpOnly letters
  if callsForHelp then .help else .malformed

/-- What an argument is. -/
def tokenOf (argument : String) : Token :=
  let s := argument.toList
  let named? : Option Token :=
    match s with
    | '-' :: 'h' :: rest => some (shortHelp rest)
    | '-' :: '-' :: _ => longOption? s
    | _ => none
  match named?, s with
  | some token, _ => token
  | none, '-' :: c :: rest =>
      if isMagnitude (c :: rest) || s.contains ' ' then
        .word argument
      else
        .unknown
  | none, _ => .word argument

/--
Whether the names of options in an argument leave open which one is meant.
-/
def isAmbiguous (argument : String) : Bool :=
  let name := (splitValue argument.toList).1
  "--".toList.isPrefixOf name && name.length < 3

/-- The words of a run; the two dashes that end the options are none. -/
abbrev Run := List (Option String)

/-- The words of a run as they were given. -/
def wordsOf (run : Run) : List String :=
  run.map fun word => word.getD "--"

/-- The words of a run without the first two dashes that stand alone. -/
def withoutDashes (run : Run) : List String :=
  (wordsOf run).erase "--"

/--
A word that fills a place, with the dashes around it, and the rest of the run.

A word that is itself dropped leaves the place with the text of an empty list.
-/
def takeWord? (run : Run) : Option (String × Run) :=
  match run.dropWhile Option.isNone with
  | [] => none
  | word :: rest =>
      let own := run.takeWhile Option.isNone ++ word ::
        rest.takeWhile Option.isNone
      some ((withoutDashes own).headD "[]", rest.dropWhile Option.isNone)

/--
The places filled so far, the words of the run at hand, and whether a word had
no place.
-/
structure Progress where
  layout : Option String
  address : Option String
  paths : Option (List String)
  block : Option Value
  rpc : Option Value
  run : Run
  hasLeftover : Bool

/-- The progress before the first argument. -/
def Progress.start : Progress where
  layout := none
  address := none
  paths := none
  block := none
  rpc := none
  run := []
  hasLeftover := false

/--
A place with the first word of a run if it is open, and the rest of the run.
-/
def fillWord
    (place : Option String)
    (run : Run) :
    Option String × Run :=
  match place, takeWord? run with
  | none, some (word, rest) => (some word, rest)
  | _, _ => (place, run)

/--
The place of the paths with the rest of a run if it is open and there is a
word.
-/
def fillPaths
    (place : Option (List String))
    (run : Run) :
    Option (List String) × Run :=
  if place.isNone && run.any Option.isSome then
    (some (withoutDashes run), [])
  else
    (place, run)

/-- The progress at the end of a run. -/
def Progress.endRun (progress : Progress) : Progress :=
  let (layout, behindLayout) := fillWord progress.layout progress.run
  let (address, behindAddress) := fillWord progress.address behindLayout
  let (paths, leftover) := fillPaths progress.paths behindAddress
  {
    progress with
    layout
    address
    paths
    run := []
    hasLeftover := progress.hasLeftover || !leftover.isEmpty
  }

/--
The value of an option that is given by one word; two dashes leave an empty
list.
-/
def optionValue (word : String) : Value :=
  if word = "--" then .list [] else .text word

/-- The progress with the value of an option. -/
def Progress.setOption
    (progress : Progress)
    (name : OptionName)
    (word : String) :
    Progress :=
  match name with
  | .block => { progress with block := some (optionValue word) }
  | .rpc => { progress with rpc := some (optionValue word) }

/-- What a command line comes to. -/
inductive Outcome where
  | run (arguments : Arguments)
  | help
  | refused
  deriving DecidableEq

/-- The outcome of progress that has met all arguments. -/
def Progress.outcome (progress : Progress) : Outcome :=
  let final := progress.endRun
  match final.layout, final.address, final.paths with
  | some layout, some address, some paths =>
      if final.hasLeftover then
        .refused
      else
        .run { layout, address, paths, block := final.block, rpc := final.rpc }
  | _, _, _ => .refused

/--
The outcome of the tokens before the end of options, with the words behind it.
-/
def collect
    (behind : Run)
    (progress : Progress) :
    List Token →
    Outcome
  | [] => Progress.outcome { progress with run := progress.run ++ behind }
  | .word s :: rest =>
    collect behind { progress with run := progress.run ++ [some s] } rest
  | .help :: _ => .help
  | .malformed :: _ => .refused
  | .unknown :: rest =>
    collect behind { progress.endRun with hasLeftover := true } rest
  | .option name (some value) :: rest =>
      collect behind (progress.endRun.setOption name value) rest
  | .option name none :: .word value :: rest =>
      collect behind (progress.endRun.setOption name value) rest
  | .option _ none :: _ => .refused

/-- What the arguments of a command line come to. -/
def parse (arguments : List String) : Outcome :=
  let before := arguments.takeWhile (· != "--")
  let behind : Run :=
    match arguments.dropWhile (· != "--") with
    | [] => []
    | _ :: words => none :: words.map some
  if before.any isAmbiguous then
    .refused
  else
    collect behind Progress.start (before.map tokenOf)

end Arguments

end EvmStorage.Command
