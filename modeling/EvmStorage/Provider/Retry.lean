import EvmStorage.Provider

namespace EvmStorage

/-!
# Repeated attempts

A call that fails is repeated a bounded number of times, and an attempt that
takes too long counts as failed.  A cancelled attempt is never repeated.
Every failure but the last is announced by a warning.  The clock of an attempt
is set to a number of seconds in floating point: with a limit that is too large
for it, no attempt starts.
-/

/-- How long an attempt may take, and how many more may follow the first one. -/
structure RetryPolicy where
  timeoutMs : Int
  maxRetries : Int
  deriving DecidableEq, Repr

namespace RetryPolicy

/-- The policy used where no other one is asked for. -/
def default : RetryPolicy where
  timeoutMs := 10000
  maxRetries := 2

/-- The number of attempts a policy allows. -/
def attempts (policy : RetryPolicy) : Nat :=
  (policy.maxRetries + 1).toNat

/--
The least number of milliseconds whose number of seconds is rounded to an
infinite one.

Nothing unfolds it, because its digits fill several lines.
-/
@[irreducible]
def timeLimitBound : Nat :=
  1000 * (Nat.pow 2 1024 - Nat.pow 2 970)

/-- The error of all attempts if none of them can start. -/
def obstacle? (policy : RetryPolicy) : Option CallError :=
  if timeLimitBound ≤ policy.timeoutMs.natAbs then
    some .timeLimitTooLarge
  else if policy.timeoutMs ≤ 0 then
    some .timedOut
  else
    none

end RetryPolicy

/-- What can be seen of the attempts made. -/
structure AttemptLog where
  created : Nat
  started : Nat
  warnings : List String
  deriving DecidableEq, Repr

namespace AttemptLog

/-- The log before the first attempt. -/
def empty : AttemptLog where
  created := 0
  started := 0
  warnings := []

/--
The log after one more attempt was made, which is not started if none can
start.
-/
def withAttempt
    (log : AttemptLog)
    (policy : RetryPolicy) :
    AttemptLog where
  created := log.created + 1
  started := if policy.obstacle?.isNone then log.started + 1 else log.started
  warnings := log.warnings

/-- The warning of a failure after which some attempts are left. -/
def warning
    (left : Nat)
    (error : CallError) :
    String :=
  "[retryable] Error encountered, retrying (" ++ toString left ++ " left): " ++
    error.shown

/-- The log after a failed attempt; the last one is not announced. -/
def withFailure
    (log : AttemptLog)
    (left : Nat)
    (error : CallError) :
    AttemptLog :=
  if left = 0 then
    log
  else
    { log with warnings := log.warnings ++ [warning left error] }

end AttemptLog

namespace Provider

/-- The answer of one attempt, which takes too long if it never comes. -/
def attempt
    (policy : RetryPolicy)
    (provider : Provider σ)
    (request : Request)
    (state : σ) :
    Answer × σ :=
  match policy.obstacle? with
  | some error => (.failed error, state)
  | none =>
      match provider request state with
      | (.silent, later) => (.failed .timedOut, later)
      | other => other

/--
The answer of the first attempt that does not fail, of at most a number of
attempts.

A failure after which more attempts are left than can be written ends them.
-/
def attemptUpTo
    (policy : RetryPolicy)
    (provider : Provider σ)
    (request : Request) :
    (left : Nat) →
    (last : Option CallError) →
    AttemptLog →
    σ →
    (Answer × AttemptLog) × σ
  | 0, last, log, state => ((.failed (.retriesExceeded last), log), state)
  | left + 1, _, log, state =>
      let log := log.withAttempt policy
      match attempt policy provider request state with
      | (.failed error, later) =>
          if Value.canWriteInt left then
            attemptUpTo policy provider request left (some error)
              (log.withFailure left error) later
          else
            ((.failed .countTooLarge, log), later)
      | (answer, later) => ((answer, log), later)

/--
The answer of a provider that is asked again after failures, with what was
logged.
-/
def attemptAll
    (policy : RetryPolicy)
    (provider : Provider σ)
    (request : Request)
    (state : σ) :
    (Answer × AttemptLog) × σ :=
  attemptUpTo policy provider request policy.attempts none .empty state

/-- A provider that asks another one again after failures. -/
def withRetries
    (policy : RetryPolicy)
    (provider : Provider σ) :
    Provider σ :=
  fun request state =>
    match attemptAll policy provider request state with
    | ((answer, _), later) => (answer, later)

end Provider

end EvmStorage
