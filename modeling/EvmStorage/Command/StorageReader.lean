import EvmStorage.Command.Arguments
import EvmStorage.Command.SlotCalculator
import EvmStorage.Contract
import EvmStorage.Settings

namespace EvmStorage.Command.StorageReader

/-!
# The storage reader

The reader prints the values that a contract has under given paths.  Errors
that callers are promised end it with a line and the code one; any other
fault ends it as it is.
-/

/--
What surrounds the reader: its settings, the layouts it can load and the node
it asks.
-/
structure Surroundings (σ : Type) where
  settings : Settings
  load : String → Except Fault Layout
  node : Provider σ

/--
What the reader printed and how it ended, the links it made and the state of
the node.
-/
structure Outcome (σ : Type) where
  report : Report
  connections : List Connection
  state : σ

/--
Whether a layout that does not load for this reason is reported with a line.
-/
def isLoadError (fault : Fault) : Bool :=
  match fault with
  | .misuse (.fileMissing _) => true
  | _ => fault.isReported

/-- The line about a layout that does not load. -/
def loadErrorLine
    (path : String)
    (fault : Fault) :
    String :=
  "✗ Cannot load storage layout " ++ path ++ ": " ++ fault.message

/-- The line about a fault of one of the families that callers are promised. -/
def faultLine
    (family : String)
    (fault : Fault) :
    String :=
  "✗ " ++ family ++ ": " ++ fault.message

/-- The line above and below the names of a contract and a block. -/
def ruleLine : String :=
  "".pushn '=' 80

/-- The lines that name a contract. -/
def contractLines (address : String) : List String :=
  [ruleLine, "Contract: " ++ address]

/-- The lines that name a block. -/
def blockLines (block : Value) : List String :=
  ["Block:    " ++ block.plain, ruleLine]

/-- The lines about one value. -/
def findingLines (finding : Contract.Finding) : List String :=
  [
    "",
    finding.path,
    "  Slot:  " ++ hexText finding.slot,
    "  Value: " ++ finding.value.plain
  ]

/-- The report of values found, or of the fault that ended the search. -/
def findingsReport
    (header : String)
    (found : Except Fault (List Contract.Finding)) :
    Report :=
  match found with
  | .ok findings =>
      { output := header ++ lines (findings.flatMap findingLines)
        ending := .ok 0 }
  | .error fault =>
      match fault.family? with
      | some family =>
        { output := header ++ lines [faultLine family fault], ending := .ok 1 }
      | none => { output := header, ending := .error fault }

/-- The report of a layout that does not load. -/
def loadReport
    (path : String)
    (fault : Fault) :
    Report :=
  if isLoadError fault then
    { output := lines [loadErrorLine path fault], ending := .ok 1 }
  else
    { output := "", ending := .error fault }

/--
The reader's node: asked under the checked address, and again after failures.
-/
def reliableNode
    (hash : Digest)
    (surroundings : Surroundings σ) :
    Provider σ :=
  (surroundings.node.withCheckedAddress hash).withRetries
    surroundings.settings.policy

/-- What the reader does with a layout that is loaded. -/
def readContract
    (hash : Digest)
    (surroundings : Surroundings σ)
    (arguments : Arguments)
    (layout : Layout)
    (state : σ) :
    Outcome σ :=
  let settings := surroundings.settings
  let connections :=
    [settings.connect (arguments.rpc.getD (.text settings.url))]
  let named := arguments.block.getD settings.defaultBlock
  let failed (output : String) (fault : Fault) : Outcome σ :=
    { report := { output, ending := .error fault }, connections, state }
  match Block.ofValue named with
  | .error fault => failed "" fault
  | .ok block =>
      if block.canShow then
        let contract : Contract := {
          address := arguments.address
          layout := layout
          defaultBlock := block
        }
        let header :=
          lines (contractLines arguments.address ++ blockLines block)
        let (found, later) :=
          contract.readPaths hash
            (reliableNode hash surroundings) arguments.paths state
        { report := findingsReport header found, connections, state := later }
      else
        failed (lines (contractLines arguments.address))
          (.misuse .numberTooLong)

/-- What the reader does for its arguments. -/
def run
    (hash : Digest)
    (surroundings : Surroundings σ)
    (arguments : List String)
    (state : σ) :
    Outcome σ :=
  let ended (report : Report) : Outcome σ :=
    { report, connections := [], state }
  match Arguments.parse arguments with
  | .help => ended { output := "", ending := .ok 0 }
  | .refused => ended { output := "", ending := .ok 2 }
  | .run arguments =>
      match surroundings.load arguments.layout with
      | .error fault => ended (loadReport arguments.layout fault)
      | .ok layout => readContract hash surroundings arguments layout state

end EvmStorage.Command.StorageReader
