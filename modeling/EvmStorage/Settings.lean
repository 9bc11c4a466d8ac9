import EvmStorage.Block
import EvmStorage.Provider.Retry

namespace EvmStorage

/-!
# Settings

Settings are taken from named texts of the environment; those that are not
there have their usual values.
-/

/-- How nodes are reached and what is read by default. -/
structure Settings where
  url : String
  policy : RetryPolicy
  logLevel : String
  defaultBlock : Value
  deriving DecidableEq

/-- A link to a node, with the time limit of its requests in seconds. -/
structure Connection where
  uri : Value
  timeout : Value
  deriving DecidableEq

namespace Settings

/-- The settings of an empty environment. -/
def default : Settings where
  url := "http://localhost:8545"
  policy := RetryPolicy.default
  logLevel := "INFO"
  defaultBlock := .text "latest"

/-- The integer that a name has in an environment. -/
def integer
    (environment : List (String × String))
    (name : String)
    (usual : Int) :
    Except Fault Int :=
  match environment.lookup name with
  | none => .ok usual
  | some text =>
      match Numeral.read? .ten text.toList with
      | some n => .ok n
      | none => .error (.misuse .notNumeral)

/-- The settings of an environment. -/
def ofEnvironment (environment : List (String × String)) :
    Except Fault Settings := do
  let text (name usual : String) : String :=
    (environment.lookup name).getD usual
  let timeoutMs ← integer environment "RPC_TIMEOUT_MS"
    RetryPolicy.default.timeoutMs
  let maxRetries ← integer environment "RPC_MAX_RETRIES"
    RetryPolicy.default.maxRetries
  let defaultBlock ← Block.ofValue (.text (text "DEFAULT_BLOCK" "latest"))
  return {
    url := text "RPC_URL" default.url
    policy := { timeoutMs, maxRetries }
    logLevel := text "LOG_LEVEL" default.logLevel
    defaultBlock
  }

/-- A number of milliseconds in seconds. -/
def seconds (milliseconds : Int) : Value :=
  .float (Binary64.ofDecimal (milliseconds < 0) milliseconds.natAbs (-3))

/-- The link to a node at an address of the network. -/
def connect
    (settings : Settings)
    (url : Value) :
    Connection where
  uri := url
  timeout := seconds settings.policy.timeoutMs

end Settings

end EvmStorage
