import EvmStorage.Text.Quoted

namespace EvmStorage

/-!
# Failures of a provider

A provider that is asked for a word may raise an error of its own.  The kinds
of errors that this library reports itself are passed on as they are; every
other kind becomes a failed read.
-/

/--
The kinds of errors that a provider may raise.

`storage` to `reported` are those of this library, the last one the kind that
they all belong to.  Any other kind is told by its name.
-/
inductive FailureKind where
  | connection
  | badValue
  | missingKey
  | timeout
  | storage
  | notFound
  | schema
  | unsupported
  | invalidKey
  | reported
  | other (name : String)
  deriving DecidableEq, Repr

/-- The name of a kind of error. -/
def FailureKind.name : FailureKind → String
  | .connection => "ConnectionError"
  | .badValue => "ValueError"
  | .missingKey => "KeyError"
  | .timeout => "TimeoutError"
  | .storage => "StorageIOError"
  | .notFound => "NotFoundError"
  | .schema => "SchemaError"
  | .unsupported => "UnsupportedTypeError"
  | .invalidKey => "InvalidKeyError"
  | .reported => "ContractStorageError"
  | .other name => name

/-- Whether an error of this kind is passed on as it is. -/
def FailureKind.isReported : FailureKind → Bool
  | .storage | .notFound | .schema => true
  | .unsupported | .invalidKey | .reported => true
  | .connection | .badValue | .missingKey | .timeout | .other _ => false

/-- An error that a provider raised, with its message. -/
structure Failure where
  kind : FailureKind
  message : String
  deriving DecidableEq, Repr

/-- The text of an error inside another message; a missing key is quoted. -/
def Failure.text (failure : Failure) : String :=
  match failure.kind with
  | .missingKey => Text.quoted failure.message
  | _ => failure.message

/-- An error with its kind, as it stands in a log. -/
def Failure.shown (failure : Failure) : String :=
  failure.kind.name ++ "(" ++ Text.quoted failure.message ++ ")"

/--
Why a call of a provider gave no word.

Two causes come from limits that are too large: no clock can be set to the
time limit of an attempt, or the number of attempts left cannot be written.
-/
inductive CallError where
  | raised (failure : Failure)
  | timedOut
  | addressRejected
  | timeLimitTooLarge
  | countTooLarge
  | retriesExceeded (last : Option CallError)
  deriving Repr

/-- An error of a call as it stands in a log. -/
def CallError.shown : CallError → String
  | .raised failure => failure.shown
  | .timedOut => "TimeoutError()"
  | .addressRejected | .countTooLarge => "ValueError()"
  | .timeLimitTooLarge =>
      "OverflowError('integer division result too large for a float')"
  | .retriesExceeded _ => "StorageIOError('Exceeded retry count')"

/-- The name of the kind of an error, for errors that have one of their own. -/
def CallError.name? : CallError → Option String
  | .raised failure => some failure.kind.name
  | .timedOut => some FailureKind.timeout.name
  | .addressRejected | .timeLimitTooLarge | .countTooLarge => none
  | .retriesExceeded _ => some FailureKind.storage.name

/-- The error that led to another one. -/
def CallError.cause? : CallError → Option CallError
  | .retriesExceeded last => last
  | _ => none

end EvmStorage
