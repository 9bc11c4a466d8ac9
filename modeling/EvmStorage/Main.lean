import EvmStorage.Command.StorageReader
import EvmStorage.Json.Reader
import EvmStorage.Layout.Report
import EvmStorage.Provider.Node

namespace EvmStorage.Command

/-!
# Command line

The first argument names the command: `slot` for the slot calculator, `read`
for the storage reader.  The reader's link is the path of a file that holds
the words of the contract in a JSON object, by slot; any other link is to a
node that cannot be reached.
-/

/-- The names of the settings in the environment. -/
def settingNames : List String :=
  ["RPC_URL", "RPC_TIMEOUT_MS", "RPC_MAX_RETRIES", "LOG_LEVEL", "DEFAULT_BLOCK"]

/-- The settings that the environment gives a text. -/
def environment : IO (List (String × String)) := do
  let found ← settingNames.mapM fun name => do
    let text ← IO.getEnv name
    return text.map fun text => (name, text)
  return found.filterMap id

/-- The bytes of a file, if it can be read. -/
def contentOf (path : String) : IO Layout.File := do
  try
    let content ← IO.FS.readBinFile path
    return some content.toList
  catch _ =>
    return none

/-- The words in a file, if it holds a JSON object. -/
def wordsOf? (file : Layout.File) : Option (List (String × Value)) := do
  let content ← file
  let text ← Layout.utf8? content
  match Json.read text with
  | .ok (.record fields) => some fields
  | _ => none

/-- Prints what a command printed, and gives the code it ends with. -/
def finish (report : Report) : IO UInt32 := do
  IO.print report.output
  match report.ending with
  | .ok code => return UInt32.ofNat code
  | .error fault =>
      IO.eprintln fault.message
      return 1

/-- Runs the storage reader. -/
def readStorage (arguments : List String) : IO UInt32 := do
  match Settings.ofEnvironment (← environment) with
  | .error fault => finish { output := "", ending := .error fault }
  | .ok settings =>
      let parsed := Arguments.parse arguments
      let layoutFile ←
        match parsed with
        | .run given => contentOf given.layout
        | _ => pure none
      let snapshot ←
        match parsed with
        | .run given => contentOf (given.rpc.getD (.text settings.url)).plain
        | _ => pure none
      let words := wordsOf? snapshot
      let surroundings : StorageReader.Surroundings Node := {
        settings := settings
        load := fun path => Layout.ofFile path layoutFile
        node := if words.isSome then Node.provider else Node.unreachable
      }
      let start := Node.ofRecord (words.getD [])
      let outcome :=
        StorageReader.run Keccak.digest surroundings arguments start
      finish outcome.report

/-- Runs the command that the first argument names. -/
def runNamed (arguments : List String) : IO UInt32 :=
  match arguments with
  | "slot" :: rest => finish (SlotCalculator.run Keccak.digest rest)
  | "read" :: rest => readStorage rest
  | _ => finish { output := SlotCalculator.usage, ending := .ok 1 }

end EvmStorage.Command

/-- Runs a command. -/
def main (arguments : List String) : IO UInt32 :=
  EvmStorage.Command.runNamed arguments
