import EvmStorage.Provider.Retry
import Mathlib.Algebra.Ring.Int.Defs
import Mathlib.Data.List.Basic

namespace EvmStorage

/-!
# Attempts and their log

A call is attempted until an attempt does not fail or no more are allowed.
What is returned, how often the call was made, which warnings were logged and
which error is given as the cause are told by the outcomes of the calls alone.
An attempt that cannot start fails without a call, and a failure ends all
attempts if the number of those that are left cannot be written.
-/

/--
The error of an attempt with this outcome, which fails if the outcome never
comes.
-/
def Answer.error? : Answer → Option CallError
  | .failed error => some error
  | .silent => some .timedOut
  | .value _ | .cancelled => none

/-- An outcome without an error is no failed call. -/
theorem Answer.ne_failed
    {answer : Answer}
    (noError : answer.error? = none)
    (error : CallError) :
    answer ≠ .failed error := by
  rintro rfl
  cases noError

/--
Attempts start if there is time for them, and no more than a clock can be set
to.
-/
theorem RetryPolicy.obstacle?_eq_none
    {policy : RetryPolicy}
    (hasTime : 0 < policy.timeoutMs)
    (keepsTime : policy.timeoutMs < timeLimitBound) :
    policy.obstacle? = none := by
  rw [obstacle?, if_neg (by omega), if_neg (by omega)]

/-- Without time no attempt can start. -/
theorem RetryPolicy.obstacle?_eq_timedOut
    {policy : RetryPolicy}
    (noTime : policy.timeoutMs ≤ 0)
    (keepsTime : policy.timeoutMs.natAbs < timeLimitBound) :
    policy.obstacle? = some .timedOut := by
  rw [obstacle?, if_neg (Nat.not_le.mpr keepsTime), if_pos noTime]

/--
The warnings of the first failures: how many attempts are left after each, and
its error.
-/
def RetryPolicy.warnings
    (policy : RetryPolicy)
    (errors : Nat → CallError)
    (count : Nat) :
    List String :=
  (List.range count).map fun failure =>
    AttemptLog.warning (policy.maxRetries.toNat - failure) (errors failure)

/--
Whether an error says that all attempts failed, and that some error was the
last one.
-/
structure CallError.SaysExhausted
    (error : CallError)
    (last : Option CallError) :
    Prop where
  name : error.name? = some "StorageIOError"
  message : ∀ request, (error.fault request).message = "Exceeded retry count"
  cause : error.cause? = last

namespace AttemptLog

/--
The warnings of failures, the first of which leaves a number of attempts and
every later one less; a failure that leaves none is not announced.
-/
def warningsOf : (left : Nat) → List CallError → List String
  | 0, _ => []
  | _, [] => []
  | left + 1, error :: errors =>
    warning (left + 1) error :: warningsOf left errors

/--
The log after failed attempts, the first of which leaves a number of further
ones.
-/
def withFailures
    (log : AttemptLog)
    (policy : RetryPolicy)
    (left : Nat)
    (errors : List CallError) :
    AttemptLog where
  created := log.created + errors.length
  started :=
    if policy.obstacle?.isNone then
      log.started + errors.length
    else
      log.started
  warnings := log.warnings ++ warningsOf left errors

variable {policy : RetryPolicy}

/--
Failures that leave a number of attempts are announced with the numbers from
there down.
-/
theorem warningsOf_map
    (errors : Nat → CallError)
    (left first count : Nat) :
    warningsOf left ((List.range' first count).map errors) =
      (List.range (min left count)).map fun failure =>
        warning (left - failure) (errors (first + failure)) := by
  induction count generalizing left first with
  | zero =>
      cases left <;> simp [warningsOf]
  | succ count inductionHypothesis =>
      cases left with
      | zero =>
          simp [warningsOf]
      | succ left =>
          have isNext (failure : Nat) :
              first + 1 + failure = first + (failure + 1) := by
            omega
          simp [warningsOf, List.range'_succ, inductionHypothesis,
            Nat.add_min_add_right, List.range_succ_eq_map, isNext]

/-- What is logged for failures that are the first attempts. -/
theorem empty_withFailures
    (errors : Nat → CallError)
    (left count : Nat) :
    empty.withFailures policy left ((List.range' 0 count).map errors) =
      { created := count
        started := if policy.obstacle?.isNone then count else 0
        warnings :=
          (List.range (min left count)).map fun failure =>
            warning (left - failure) (errors failure) } := by
  simp [withFailures, empty, warningsOf_map]

/-- Without failures nothing is logged. -/
theorem withFailures_nil
    (log : AttemptLog)
    (left : Nat) :
    log.withFailures policy left [] = log := by
  have noWarnings : warningsOf left [] = [] := by
    cases left <;> rfl
  simp [withFailures, noWarnings]

/-- The first of several failures is logged before the others. -/
theorem withFailures_cons
    (log : AttemptLog)
    (left : Nat)
    (error : CallError)
    (errors : List CallError) :
    ((log.withAttempt policy).withFailure left error).withFailures policy
      (left - 1) errors =
      log.withFailures policy left (error :: errors) := by
  have isNext (count : Nat) :
      count + 1 + errors.length = count + (errors.length + 1) := by
    omega
  cases left with
  | zero =>
      cases h : policy.obstacle? <;>
        simp [withFailure, withAttempt, withFailures, warningsOf, h, isNext]
  | succ left =>
      cases h : policy.obstacle? <;>
        simp [withFailure, withAttempt, withFailures, warningsOf, h, isNext]

end AttemptLog

namespace Provider

variable {policy : RetryPolicy} {provider : Provider σ} {request : Request}
  {state later : σ} {errors : List CallError}

/--
Whether attempts, one after the other, fail with these errors and change a
state.
-/
inductive FailsWith
    (policy : RetryPolicy)
    (provider : Provider σ)
    (request : Request) :
    σ →
    List CallError →
    σ →
    Prop where
  | nil
      (state : σ) :
      FailsWith policy provider request state [] state
  | cons
      {state between later : σ}
      {error : CallError}
      {errors : List CallError}
      (failed :
        attempt policy provider request state = (.failed error, between))
      (goesOn : FailsWith policy provider request between errors later) :
      FailsWith policy provider request state (error :: errors) later

/-- A failed attempt is logged, and the remaining ones are made. -/
theorem attemptUpTo_of_failed
    {error : CallError}
    {left : Nat}
    (failed : attempt policy provider request state = (.failed error, later))
    (writable : Value.canWriteInt left)
    (last : Option CallError)
    (log : AttemptLog) :
    attemptUpTo policy provider request (left + 1) last log state =
      attemptUpTo policy provider request left (some error)
        ((log.withAttempt policy).withFailure left error) later := by
  rw [attemptUpTo, failed]
  exact if_pos writable

/--
A failed attempt is the last one if the number of those left cannot be written.
-/
theorem attemptUpTo_of_unwritable
    {error : CallError}
    {left : Nat}
    (failed : attempt policy provider request state = (.failed error, later))
    (notWritable : ¬ Value.canWriteInt left)
    (last : Option CallError)
    (log : AttemptLog) :
    attemptUpTo policy provider request (left + 1) last log state =
      ((.failed .countTooLarge, log.withAttempt policy), later) := by
  rw [attemptUpTo, failed]
  exact if_neg notWritable

/-- An attempt that does not fail is the last one. -/
theorem attemptUpTo_of_ended
    {answer : Answer}
    (isAnswer : attempt policy provider request state = (answer, later))
    (notFailed : ∀ error, answer ≠ .failed error)
    (left : Nat)
    (last : Option CallError)
    (log : AttemptLog) :
    attemptUpTo policy provider request (left + 1) last log state =
      ((answer, log.withAttempt policy), later) := by
  rw [attemptUpTo, isAnswer]
  cases answer with
  | failed error =>
      exact absurd rfl (notFailed error)
  | value | cancelled | silent =>
      rfl

/--
After attempts that failed the remaining ones are left, and the last error is
known.
-/
theorem FailsWith.attemptUpTo_eq
    (fails : FailsWith policy provider request state errors later)
    (left : Nat)
    (writable : ∀ count < errors.length + left, Value.canWriteInt count)
    (last : Option CallError)
    (log : AttemptLog) :
    attemptUpTo policy provider request (errors.length + left) last log state =
      attemptUpTo policy provider request left (errors.getLast?.or last)
        (log.withFailures policy (errors.length + left - 1) errors) later := by
  induction fails generalizing last log with
  | nil state =>
      simp [AttemptLog.withFailures_nil]
  | @cons state between later error errors failed _ inductionHypothesis =>
      have isNext :
          (error :: errors).length + left = errors.length + left + 1 := by
        simp only [List.length_cons]
        omega
      have isLast :
          (error :: errors).getLast?.or last =
            errors.getLast?.or (some error) := by
        simp only [List.getLast?_cons]
        cases errors.getLast? <;> rfl
      rw [isNext] at writable ⊢
      rw [attemptUpTo_of_failed failed (writable _ (Nat.lt_succ_self _)),
        inductionHypothesis fun count below =>
          writable count (Nat.lt_succ_of_lt below),
        AttemptLog.withFailures_cons, isLast, Nat.add_sub_cancel]

/--
Every number of attempts left can be written if the number of repetitions can.
-/
theorem canWriteInt_of_lt_attempts
    (writable : policy.maxRetries < Value.writableBound) :
    ∀ count < policy.attempts, Value.canWriteInt count := by
  intro count below
  simp only [RetryPolicy.attempts] at below
  simp only [Value.canWriteInt, decide_eq_true_eq]
  omega

/--
An allowed attempt that does not fail, after some that did, gives the answer.
-/
theorem FailsWith.attemptAll_of_ended
    {between : σ}
    {answer : Answer}
    (fails : FailsWith policy provider request state errors between)
    (isAnswer : attempt policy provider request between = (answer, later))
    (notFailed : ∀ error, answer ≠ .failed error)
    (writable : policy.maxRetries < Value.writableBound)
    (allowed : errors.length ≤ policy.maxRetries) :
    attemptAll policy provider request state =
      ((answer,
        (AttemptLog.empty.withFailures policy
          policy.maxRetries.toNat errors).withAttempt policy),
        later) := by
  have attempts :
      policy.attempts =
        errors.length + (policy.maxRetries.toNat - errors.length + 1) := by
    rw [RetryPolicy.attempts]
    omega
  have isFirst : policy.attempts - 1 = policy.maxRetries.toNat := by
    rw [RetryPolicy.attempts]
    omega
  have canWrite := canWriteInt_of_lt_attempts writable
  rw [attempts] at canWrite isFirst
  rw [attemptAll, attempts, fails.attemptUpTo_eq _ canWrite, isFirst,
    attemptUpTo_of_ended isAnswer notFailed]

/-- If all allowed attempts fail, the last error is the cause. -/
theorem FailsWith.attemptAll_of_exhausted
    (fails : FailsWith policy provider request state errors later)
    (writable : policy.maxRetries < Value.writableBound)
    (allFailed : errors.length = policy.attempts) :
    attemptAll policy provider request state =
      ((.failed (.retriesExceeded errors.getLast?),
        AttemptLog.empty.withFailures policy policy.maxRetries.toNat errors),
        later) := by
  have attempts : policy.attempts = errors.length + 0 :=
    allFailed.symm
  have isFirst : policy.attempts - 1 = policy.maxRetries.toNat := by
    rw [RetryPolicy.attempts]
    omega
  have canWrite := canWriteInt_of_lt_attempts writable
  rw [attempts] at canWrite isFirst
  rw [attemptAll, attempts, fails.attemptUpTo_eq 0 canWrite, isFirst,
    attemptUpTo, Option.or_none]

/--
An attempt that can start fails if the call ends with an error or not at all.
-/
theorem attempt_of_error
    {error : CallError}
    (starts : policy.obstacle? = none)
    (isError : (provider request state).1.error? = some error) :
    attempt policy provider request state =
      (.failed error, (provider request state).2) := by
  cases called : provider request state with
  | mk answer later =>
      rw [called] at isError
      cases answer with
      | value raw | cancelled =>
          cases isError
      | failed raised =>
          cases isError
          simp only [attempt, starts, called]
      | silent =>
          cases isError
          simp only [attempt, starts, called]

/-- An attempt that can start and does not fail has the answer of the call. -/
theorem attempt_of_ended
    (starts : policy.obstacle? = none)
    (notFailed : (provider request state).1.error? = none) :
    attempt policy provider request state = provider request state := by
  cases called : provider request state with
  | mk answer later =>
      rw [called] at notFailed
      cases answer with
      | value raw | cancelled =>
          simp only [attempt, starts, called]
      | failed raised | silent =>
          cases notFailed

/-- Attempts that cannot start all fail, without a call. -/
theorem failsWith_of_obstacle
    {error : CallError}
    (isObstacle : policy.obstacle? = some error)
    (provider : Provider σ)
    (request : Request)
    (state : σ)
    (count : Nat) :
    FailsWith policy provider request state
      ((List.range' 0 count).map fun _ => error) state := by
  rw [List.map_const', List.length_range']
  induction count with
  | zero =>
      exact .nil state
  | succ count inductionHypothesis =>
      exact .cons (by simp only [attempt, isObstacle]) inductionHypothesis

/-- A provider whose calls, counted from the first one, have these outcomes. -/
def ofOutcomes (outcomes : Nat → Answer) : Provider Nat :=
  fun _ call => (outcomes call, call + 1)

variable {outcomes : Nat → Answer} {errors : Nat → CallError}

/-- Calls whose outcomes are errors are attempts that fail. -/
theorem failsWith_ofOutcomes
    (starts : policy.obstacle? = none)
    (request : Request)
    {first count : Nat}
    (fail :
      ∀ call < first + count, (outcomes call).error? = some (errors call)) :
    FailsWith policy (ofOutcomes outcomes) request first
      ((List.range' first count).map errors) (first + count) := by
  induction count generalizing first with
  | zero =>
      exact .nil first
  | succ count inductionHypothesis =>
      have isNext : first + 1 + count = first + (count + 1) := by
        omega
      have failed :=
        @attempt_of_error _ policy (ofOutcomes outcomes) request first _ starts
          (fail first (by omega))
      rw [List.range'_succ, List.map_cons, ← isNext]
      exact .cons failed (@inductionHypothesis (first + 1) (by rwa [isNext]))

/-- The last of failures that are the first calls. -/
theorem getLast?_errors
    (errors : Nat → CallError)
    (policy : RetryPolicy) :
    ((List.range' 0 policy.attempts).map errors).getLast? =
      if 0 ≤ policy.maxRetries then
        some (errors policy.maxRetries.toNat)
      else
        none := by
  rw [RetryPolicy.attempts]
  split
  · next allowed =>
      have isLast :
          (policy.maxRetries + 1).toNat = policy.maxRetries.toNat + 1 := by
        omega
      rw [isLast, List.range'_concat]
      simp
  · next noneAllowed =>
      have isEmpty : (policy.maxRetries + 1).toNat = 0 := by
        omega
      rw [isEmpty]
      rfl

/--
If all allowed attempts fail, every failure but the last one is announced.
-/
theorem attemptAll_of_allFail
    (fails :
      FailsWith policy provider request state
        ((List.range' 0 policy.attempts).map errors) later)
    (writable : policy.maxRetries < Value.writableBound) :
    ∃ error : CallError,
      error.SaysExhausted
          (if 0 ≤ policy.maxRetries then
            some (errors policy.maxRetries.toNat)
          else
            none) ∧
        attemptAll policy provider request state =
          ((.failed error,
            { created := policy.attempts
              started := if policy.obstacle?.isNone then policy.attempts else 0
              warnings := policy.warnings errors policy.maxRetries.toNat }),
            later) := by
  have isCount :
      min policy.maxRetries.toNat policy.attempts =
        policy.maxRetries.toNat := by
    rw [RetryPolicy.attempts]
    omega
  refine ⟨.retriesExceeded _, ⟨rfl, fun _ => rfl, rfl⟩, ?_⟩
  rw [fails.attemptAll_of_exhausted writable (by simp), getLast?_errors,
    AttemptLog.empty_withFailures, isCount]
  rfl

/--
Attempts are made until one ends with a value or a cancellation, or no more are
allowed.

The calls made, the warnings with the numbers of attempts left, and the error
that is given as the cause all follow from the outcomes of the calls.  Without
time no call begins, and every attempt counts as one that took too long.
-/
theorem attemptAll_ofOutcomes
    (keepsTime : policy.timeoutMs.natAbs < RetryPolicy.timeLimitBound)
    (writable : policy.maxRetries < Value.writableBound)
    (outcomes : Nat → Answer)
    (errors : Nat → CallError)
    (request : Request) :
    (0 < policy.timeoutMs →
      (∀ last : Nat,
        last ≤ policy.maxRetries →
        (∀ call < last, (outcomes call).error? = some (errors call)) →
        (outcomes last).error? = none →
        attemptAll policy (ofOutcomes outcomes) request 0 =
          ((outcomes last,
            { created := last + 1
              started := last + 1
              warnings := policy.warnings errors last }),
            last + 1)) ∧
      ((∀ call < policy.attempts, (outcomes call).error? = some (errors call)) →
        ∃ error : CallError,
          error.SaysExhausted
              (if 0 ≤ policy.maxRetries then
                some (errors policy.maxRetries.toNat) else none) ∧
            attemptAll policy (ofOutcomes outcomes) request 0 =
              ((.failed error,
                { created := policy.attempts
                  started := policy.attempts
                  warnings := policy.warnings errors policy.maxRetries.toNat }),
                policy.attempts))) ∧
    (policy.timeoutMs ≤ 0 →
      ∃ error : CallError,
        error.SaysExhausted
            (if 0 ≤ policy.maxRetries then some .timedOut else none) ∧
          attemptAll policy (ofOutcomes outcomes) request 0 =
            ((.failed error,
              { created := policy.attempts
                started := 0
                warnings := policy.warnings
                  (fun _ => .timedOut) policy.maxRetries.toNat }),
              0)) := by
  refine ⟨fun hasTime => ?_, fun noTime => ?_⟩
  · have starts := RetryPolicy.obstacle?_eq_none hasTime (by omega)
    constructor
    · intro last allowed fail noError
      have fails :=
        @failsWith_ofOutcomes policy outcomes errors starts request 0 last
        (by simpa using fail)
      have ended :=
        @attempt_of_ended _ policy (ofOutcomes outcomes) request
          (0 + last) starts
        (by simpa [ofOutcomes] using noError)
      have isCount : min policy.maxRetries.toNat last = last := by
        omega
      have isLast : 0 + last = last :=
        Nat.zero_add last
      rw [isLast] at fails ended
      rw [fails.attemptAll_of_ended ended (Answer.ne_failed noError) writable
        (by simpa using allowed), AttemptLog.empty_withFailures, isCount]
      simp [AttemptLog.withAttempt, starts, RetryPolicy.warnings]
    · intro fail
      have fails :=
        @failsWith_ofOutcomes policy outcomes errors starts request 0
          policy.attempts
        (by simpa using fail)
      have exhausted := attemptAll_of_allFail fails writable
      rwa [starts, Nat.zero_add] at exhausted
  · have isObstacle := RetryPolicy.obstacle?_eq_timedOut noTime keepsTime
    have exhausted :=
      attemptAll_of_allFail
        (failsWith_of_obstacle isObstacle
          (ofOutcomes outcomes) request 0 policy.attempts) writable
    rwa [isObstacle] at exhausted

/--
A call that hangs, one that loses its connection, and one that brings a word.
-/
def secondRepetition : Nat → Answer
  | 0 => .silent
  | 1 => .failed (.raised { kind := .connection, message := "reset" })
  | _ => .value (.int 7)

/-- A request for the word of the first slot. -/
def firstSlot : Request where
  address := "0x00"
  slot := 0
  block := .text "latest"

/--
The third attempt brings a word after two warnings; without time none of the
three begins.
-/
theorem attemptAll_secondRepetition :
    attemptAll { timeoutMs := 20, maxRetries := 2 }
      (ofOutcomes secondRepetition) firstSlot 0 =
        ((.value (.int 7),
          { created := 3
            started := 3
            warnings := [
              "[retryable] Error encountered, retrying (2 left): TimeoutError()",
              "[retryable] Error encountered, retrying (1 left): ConnectionError('reset')"] }),
          3) ∧
      ∃ error : CallError,
        error.SaysExhausted (some .timedOut) ∧
          attemptAll { timeoutMs := 0, maxRetries := 2 }
            (ofOutcomes secondRepetition) firstSlot 0 =
            ((.failed error,
              { created := 3
                started := 0
                warnings := [
                  "[retryable] Error encountered, retrying (2 left): TimeoutError()",
                  "[retryable] Error encountered, retrying (1 left): TimeoutError()"] }),
              0) := by
  let errors : Nat → CallError
    | 0 => .timedOut
    | _ => .raised { kind := .connection, message := "reset" }
  have fail : ∀ call < 2, (secondRepetition call).error? = some (errors call)
    | 0, _ => rfl
    | 1, _ => rfl
  constructor
  · have ended :=
      ((@attemptAll_ofOutcomes { timeoutMs := 20, maxRetries := 2 }
        (by decide +kernel)
        (by decide +kernel) secondRepetition errors firstSlot).1
          (by decide)).1 2 (by decide) fail
        rfl
    have areWarnings :
        RetryPolicy.warnings { timeoutMs := 20, maxRetries := 2 } errors 2 =
          ["[retryable] Error encountered, retrying (2 left): TimeoutError()",
            "[retryable] Error encountered, retrying (1 left): ConnectionError('reset')"] := by
      decide +kernel
    rwa [areWarnings] at ended
  · obtain ⟨error, saysExhausted, exhausted⟩ :=
      (@attemptAll_ofOutcomes { timeoutMs := 0, maxRetries := 2 }
        (by decide +kernel)
        (by decide +kernel) secondRepetition errors firstSlot).2 (by decide)
    have areWarnings :
        RetryPolicy.warnings { timeoutMs := 0, maxRetries := 2 }
          (fun _ => .timedOut)
            (Int.toNat 2) =
          ["[retryable] Error encountered, retrying (2 left): TimeoutError()",
            "[retryable] Error encountered, retrying (1 left): TimeoutError()"] := by
      decide +kernel
    rw [areWarnings] at exhausted
    exact ⟨error, saysExhausted, exhausted⟩

/--
With a limit that no clock can be set to, all attempts fail and no call begins.
-/
theorem attemptAll_of_timeLimitTooLarge
    (tooLarge : RetryPolicy.timeLimitBound ≤ policy.timeoutMs.natAbs)
    (writable : policy.maxRetries < Value.writableBound)
    (provider : Provider σ)
    (request : Request)
    (state : σ) :
    ∃ error : CallError,
      error.SaysExhausted
          (if 0 ≤ policy.maxRetries then some .timeLimitTooLarge else none) ∧
        attemptAll policy provider request state =
          ((.failed error,
            { created := policy.attempts
              started := 0
              warnings := policy.warnings
                (fun _ => .timeLimitTooLarge) policy.maxRetries.toNat }),
            state) := by
  have isObstacle : policy.obstacle? = some .timeLimitTooLarge := by
    rw [RetryPolicy.obstacle?, if_pos tooLarge]
  have exhausted :=
    attemptAll_of_allFail
      (failsWith_of_obstacle isObstacle provider request state policy.attempts)
        writable
  rwa [isObstacle] at exhausted

/--
If not even the number of repetitions can be written, the first failure is the
last one.
-/
theorem attemptAll_of_countTooLarge
    {error : CallError}
    (unwritable : Value.writableBound ≤ policy.maxRetries)
    (failed : attempt policy provider request state = (.failed error, later)) :
    attemptAll policy provider request state =
      ((.failed .countTooLarge, AttemptLog.empty.withAttempt policy),
        later) := by
  have attempts : policy.attempts = policy.maxRetries.toNat + 1 := by
    rw [RetryPolicy.attempts]
    omega
  have notWritable : ¬ Value.canWriteInt policy.maxRetries.toNat := by
    simp only [Value.canWriteInt, decide_eq_true_eq]
    omega
  rw [attemptAll, attempts, attemptUpTo_of_unwritable failed notWritable]

/--
A call that would bring a word does not begin if the time limit is too large,
and is not made again if the number of repetitions is too large.
-/
theorem attemptAll_beyond_limits :
    (∃ error : CallError,
      error.SaysExhausted (some .timeLimitTooLarge) ∧
        attemptAll { timeoutMs := 10 ^ 400, maxRetries := 0 }
            (ofOutcomes fun _ => .value (.int 7)) firstSlot 0 =
          ((.failed error,
            { created := 1, started := 0, warnings := [] }), 0)) ∧
      attemptAll { timeoutMs := 20, maxRetries := Value.writableBound }
          (ofOutcomes fun call => if call = 0 then .silent else .value (.int 7))
            firstSlot 0 =
        ((.failed .countTooLarge,
          { created := 1, started := 1, warnings := [] }), 1) := by
  constructor
  · have tooLarge :
        RetryPolicy.timeLimitBound ≤
          (RetryPolicy.mk (10 ^ 400) 0).timeoutMs.natAbs := by
      decide +kernel
    exact attemptAll_of_timeLimitTooLarge tooLarge
      (by decide +kernel) _ firstSlot 0
  · have starts : (RetryPolicy.mk 20 Value.writableBound).obstacle? = none :=
      RetryPolicy.obstacle?_eq_none (by decide) (by decide +kernel)
    have unwritable :
        Value.writableBound ≤
          (RetryPolicy.mk 20 Value.writableBound).maxRetries := by
      decide +kernel
    rw [attemptAll_of_countTooLarge unwritable (attempt_of_error starts rfl)]
    simp only [AttemptLog.withAttempt, AttemptLog.empty, starts, ofOutcomes,
      Option.isNone_none, ↓reduceIte]

end Provider

end EvmStorage
