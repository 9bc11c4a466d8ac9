import EvmStorage.Proofs.ArrayElements
import EvmStorage.Proofs.Attempts
import EvmStorage.Proofs.Requests

namespace EvmStorage

/-!
# Reading with repeated attempts

A provider is followed whose calls go wrong as a script has it, and which
otherwise answers as a provider without failures does.  Where the calls for a
word fail no more often than they may be repeated, repeating them hides the
failures: the result stays the same, and every request is seen once more than
it failed.  A word for which too many calls fail, or for which one is
cancelled, ends the reading.
-/

/-- What may go wrong in a call in place of an answer. -/
inductive Mishap where
  | raises (error : CallError)
  | hangs
  | cancelled
  deriving Repr

/-- What a provider answers in a call that goes wrong. -/
def Mishap.answer : Mishap → Answer
  | .raises error => .failed error
  | .hangs => .silent
  | .cancelled => .cancelled

/-- The error of an attempt that goes wrong, unless it was cancelled. -/
def Mishap.error? : Mishap → Option CallError
  | .raises error => some error
  | .hangs => some .timedOut
  | .cancelled => none

/-- Which of the calls of a provider go wrong, counted from the first one. -/
abbrev Script :=
  Nat → Option Mishap

/-- Whether all calls from one up to another one fail, each with its error. -/
inductive Script.Fails (script : Script) :
    Nat → List CallError → Nat → Prop where
  | nil
      (call : Nat) :
      Fails script call [] call
  | cons
      {call later : Nat}
      {mishap : Mishap}
      {error : CallError}
      {errors : List CallError}
      (goesWrong : script call = some mishap)
      (isError : mishap.error? = some error)
      (goesOn : Fails script (call + 1) errors later) :
      Fails script call (error :: errors) later

/--
The requests that are seen from a call up to another one if every request is
repeated after each of its failures, of which there are at most a number.
-/
inductive Script.Repeats (script : Script) (most : Nat) :
    Nat →
    List Request →
    List Request →
    Nat →
    Prop where
  | nil
      (call : Nat) :
      Repeats script most call [] [] call
  | cons
      {call answered later : Nat}
      {errors : List CallError}
      {request : Request}
      {requests seen : List Request}
      (fails : script.Fails call errors answered)
      (fewFailures : errors.length ≤ most)
      (isAnswered : script answered = none)
      (goesOn : Repeats script most (answered + 1) requests seen later) :
      Repeats script most call (request :: requests)
        (List.replicate (errors.length + 1) request ++ seen) later

/-- What a call that goes wrong answers is the error that an attempt has. -/
theorem Mishap.error?_answer (mishap : Mishap) :
    mishap.answer.error? = mishap.error? := by
  cases mishap <;> rfl

namespace Provider

/-- A provider that answers every request and never fails. -/
def answering (raw : Request → Value) : Provider Unit :=
  fun request _ => (.value (raw request), ())

/-- A provider that counts its calls and answers unless the call goes wrong. -/
def scripted
    (raw : Request → Value)
    (script : Script) :
    Provider Nat :=
  fun request call =>
    match script call with
    | some mishap => (mishap.answer, call + 1)
    | none => (.value (raw request), call + 1)

variable {raw : Request → Value} {script : Script} {policy : RetryPolicy}
  {most : Nat} {address : String} {block : Value}

/-- Calls that fail are attempts that fail, and each of them is seen. -/
theorem failsWith_of_fails
    {call later : Nat}
    {errors : List CallError}
    (raw : Request → Value)
    (starts : policy.obstacle? = none)
    (fails : script.Fails call errors later)
    (request : Request)
    (seen : List Request) :
    FailsWith policy (scripted raw script).recording request (call, seen) errors
      (later, seen ++ List.replicate errors.length request) := by
  induction fails generalizing seen with
  | nil call =>
      simpa using FailsWith.nil (call, seen)
  | @cons call later mishap error errors goesWrong isError _
    inductionHypothesis =>
      have called :
          (scripted raw script).recording request (call, seen) =
            (mishap.answer, call + 1, seen ++ [request]) := by
        simp [recording, scripted, goesWrong]
      have failed :=
        @attempt_of_error _ policy (scripted raw script).recording request
        (call, seen) error starts
          (by rw [called, mishap.error?_answer, isError])
      rw [called] at failed
      have goesOn := inductionHypothesis (seen ++ [request])
      rw [List.append_assoc, List.singleton_append] at goesOn
      exact .cons failed goesOn

/--
A call that does not end with an error ends the attempts, if few enough failed
before it: its answer is the answer to the request.
-/
theorem withRetries_of_attempt
    {call later last : Nat}
    {errors : List CallError}
    {answer : Answer}
    {request : Request}
    (starts : policy.obstacle? = none)
    (isMost : policy.maxRetries = most)
    (writable : policy.maxRetries < Value.writableBound)
    (fails : script.Fails call errors later)
    (fewFailures : errors.length ≤ most)
    (isAnswer : scripted raw script request later = (answer, last))
    (noError : answer.error? = none)
    (seen : List Request) :
    (scripted raw script).recording.withRetries policy request (call, seen) =
      (answer, last, seen ++ List.replicate (errors.length + 1) request) := by
  have called :
      (scripted raw script).recording request
          (later, seen ++ List.replicate errors.length request) =
        (answer, last, seen ++ List.replicate (errors.length + 1) request) := by
    simp only [recording, isAnswer, List.replicate_succ', List.append_assoc]
  have attempted :=
    @attempt_of_ended _ policy (scripted raw script).recording request
    (later, seen ++ List.replicate errors.length request) starts
      (by rw [called, noError])
  rw [called] at attempted
  rw [withRetries,
    (failsWith_of_fails raw starts fails request seen).attemptAll_of_ended
      attempted (Answer.ne_failed noError) writable
      (by rw [isMost]; exact_mod_cast fewFailures)]

/-- A request that is answered after few enough failures has this answer. -/
theorem withRetries_of_answered
    {call answered : Nat}
    {errors : List CallError}
    (starts : policy.obstacle? = none)
    (isMost : policy.maxRetries = most)
    (writable : policy.maxRetries < Value.writableBound)
    (fails : script.Fails call errors answered)
    (fewFailures : errors.length ≤ most)
    (isAnswered : script answered = none)
    (request : Request)
    (seen : List Request) :
    (scripted raw script).recording.withRetries policy request (call, seen) =
      (.value (raw request), answered + 1,
        seen ++ List.replicate (errors.length + 1) request) :=
  withRetries_of_attempt starts isMost writable fails fewFailures
    (by simp [scripted, isAnswered])
    rfl seen

/--
A request of which an attempt is cancelled after few enough failures is
cancelled.
-/
theorem withRetries_of_cancelled
    {call cancelled : Nat}
    {errors : List CallError}
    (starts : policy.obstacle? = none)
    (isMost : policy.maxRetries = most)
    (writable : policy.maxRetries < Value.writableBound)
    (fails : script.Fails call errors cancelled)
    (fewFailures : errors.length ≤ most)
    (isCancelled : script cancelled = some .cancelled)
    (request : Request)
    (seen : List Request) :
    (scripted raw script).recording.withRetries policy request (call, seen) =
      (.cancelled, cancelled + 1,
        seen ++ List.replicate (errors.length + 1) request) :=
  withRetries_of_attempt starts isMost writable fails fewFailures
    (by simp [scripted, isCancelled, Mishap.answer]) rfl seen

/--
A request of which all attempts fail has failed, with the last error as the
cause.
-/
theorem withRetries_of_exhausted
    {call later : Nat}
    {errors : List CallError}
    (starts : policy.obstacle? = none)
    (isMost : policy.maxRetries = most)
    (writable : policy.maxRetries < Value.writableBound)
    (fails : script.Fails call errors later)
    (allFailed : errors.length = most + 1)
    (request : Request)
    (seen : List Request) :
    (scripted raw script).recording.withRetries policy request (call, seen) =
      (.failed (.retriesExceeded errors.getLast?), later,
        seen ++ List.replicate (most + 1) request) := by
  have allowed : errors.length = policy.attempts := by
    rw [RetryPolicy.attempts, isMost, allFailed]
    omega
  rw [withRetries,
    (failsWith_of_fails raw starts fails request seen).attemptAll_of_exhausted
      writable allowed,
    allFailed]

end Provider

/--
If some attempt is not too late, the one that is answered comes after few
enough failures.
-/
theorem Script.exists_fails
    {script : Script}
    {call attempt : Nat}
    (isAnswered : script (call + attempt) = none)
    (notCancelled : ∀ call, script call ≠ some .cancelled) :
    ∃ errors answered,
      script.Fails call errors answered ∧ errors.length ≤ attempt ∧
        script answered = none := by
  induction attempt generalizing call with
  | zero =>
      exact ⟨[], call, .nil call, le_rfl, isAnswered⟩
  | succ attempt inductionHypothesis =>
      cases goesWrong : script call with
      | none =>
          exact ⟨[], call, .nil call, Nat.zero_le _, goesWrong⟩
      | some mishap =>
          obtain ⟨error, isError⟩ : ∃ error, mishap.error? = some error := by
            cases mishap with
            | raises error =>
                exact ⟨error, rfl⟩
            | hangs =>
                exact ⟨.timedOut, rfl⟩
            | cancelled =>
                exact absurd goesWrong (notCancelled call)
          have isNext : call + 1 + attempt = call + (attempt + 1) := by
            omega
          obtain ⟨errors, answered, fails, fewFailures, isAnswer⟩ :=
            inductionHypothesis (by rw [isNext]; exact isAnswered)
          exact ⟨error :: errors, answered, .cons goesWrong isError fails,
            Nat.succ_le_succ fewFailures, isAnswer⟩

/--
If no calls fail too often in a row, all requests are repeated until they are
answered.
-/
theorem Script.exists_repeats
    {script : Script}
    {most : Nat}
    (transient : ∀ call, ∃ attempt ≤ most, script (call + attempt) = none)
    (notCancelled : ∀ call, script call ≠ some .cancelled)
    (requests : List Request)
    (call : Nat) :
    ∃ seen later, script.Repeats most call requests seen later := by
  induction requests generalizing call with
  | nil =>
      exact ⟨[], call, .nil call⟩
  | cons request requests inductionHypothesis =>
      obtain ⟨attempt, fewAttempts, isAnswered⟩ := transient call
      obtain ⟨errors, answered, fails, fewFailures, isAnswer⟩ :=
        exists_fails isAnswered notCancelled
      obtain ⟨seen, later, repeats⟩ := inductionHypothesis (answered + 1)
      exact ⟨_, later,
        .cons fails (fewFailures.trans fewAttempts) isAnswer repeats⟩

/--
The requests that a reading makes of a provider that never fails, and its
result.
-/
inductive Reading.Makes (raw : Request → Value) (address : String)
    (block : Value) :
    Reading α →
    List Request →
    Except Fault α →
    Prop where
  | done
      (result : Except Fault α) :
      Makes raw address block (.done result) [] result
  | hidden
      {slot : Int}
      {next : Bytes → Reading α}
      (hidden : block.canShow = false) :
      Makes raw address block (.word slot next) []
        (.error (.misuse .numberTooLong))
  | refused
      {slot : Int}
      {next : Bytes → Reading α}
      {fault : Fault}
      (canShow : block.canShow)
      (isRefused : Word.ofRaw (raw { address, slot, block }) = .error fault) :
      Makes raw address block (.word slot next) [{ address, slot, block }]
        (.error fault)
  | word
      {slot : Int}
      {next : Bytes → Reading α}
      {word : Bytes}
      {requests : List Request}
      {result : Except Fault α}
      (canShow : block.canShow)
      (isWord : Word.ofRaw (raw { address, slot, block }) = .ok word)
      (goesOn : Makes raw address block (next word) requests result) :
      Makes raw address block (.word slot next)
        ({ address, slot, block } :: requests) result

namespace Reading

variable {raw : Request → Value} {script : Script} {policy : RetryPolicy}
  {most : Nat} {address : String} {block : Value} {reading : Reading α}
  {requests : List Request} {result : Except Fault α}

/-- Every reading comes to an end with a provider that never fails. -/
theorem exists_makes
    (raw : Request → Value)
    (address : String)
    (block : Value)
    (reading : Reading α) :
    ∃ requests result, reading.Makes raw address block requests result := by
  induction reading with
  | done result =>
      exact ⟨[], result, .done result⟩
  | word slot next inductionHypothesis =>
      cases canShow : block.canShow with
      | false =>
          exact ⟨_, _, .hidden canShow⟩
      | true =>
          cases isWord : Word.ofRaw (raw { address, slot, block }) with
          | error fault =>
              exact ⟨_, _, .refused canShow isWord⟩
          | ok word =>
              obtain ⟨requests, result, makes⟩ := inductionHypothesis word
              exact ⟨_, result, .word canShow isWord makes⟩

/-- A provider that never fails sees these requests, and brings this result. -/
theorem Makes.run_answering
    (makes : reading.Makes raw address block requests result)
    (kept : List Request) :
    (Provider.answering raw).recording.run address block reading ((), kept) =
      (result, (), kept ++ requests) := by
  induction makes generalizing kept with
  | done result =>
      simp [Provider.run]
  | hidden hidden =>
      rw [Provider.run_word_of_hidden hidden, List.append_nil]
  | refused canShow isRefused =>
      exact Provider.run_word_of_error canShow (by exact isRefused) _
  | word canShow isWord _ inductionHypothesis =>
      rw [Provider.run_recording_word canShow (by exact isWord)]
      simp [inductionHypothesis, Provider.requestsFor, Provider.answering]

/--
If all requests are repeated until they are answered, the result stays the
same.
-/
theorem Makes.run_withRetries
    (starts : policy.obstacle? = none)
    (isMost : policy.maxRetries = most)
    (writable : policy.maxRetries < Value.writableBound)
    (makes : reading.Makes raw address block requests result)
    {call later : Nat}
    {seen : List Request}
    (repeats : script.Repeats most call requests seen later)
    (kept : List Request) :
    ((Provider.scripted raw script).recording.withRetries policy).run
        address block reading (call, kept) =
      (result, later, kept ++ seen) := by
  induction makes generalizing call seen kept with
  | done result =>
      cases repeats with
      | nil call =>
          simp [Provider.run]
  | hidden hidden =>
      cases repeats with
      | nil call =>
          rw [Provider.run_word_of_hidden hidden, List.append_nil]
  | refused canShow isRefused =>
      cases repeats with
      | cons fails fewFailures isAnswered goesOn =>
          cases goesOn with
          | nil call =>
              rw [List.append_nil]
              exact Provider.run_word_of_fault canShow
                (Provider.withRetries_of_answered starts isMost writable fails
                  fewFailures isAnswered _ kept) isRefused _
  | word canShow isWord _ inductionHypothesis =>
      cases repeats with
      | cons fails fewFailures isAnswered goesOn =>
          rw [Provider.run_word_of_answer canShow
            (Provider.withRetries_of_answered starts isMost writable fails
              fewFailures isAnswered _ kept) isWord,
            inductionHypothesis goesOn, List.append_assoc]

/--
If the first request has no word, its fault is the result, and no request
follows it.
-/
theorem Makes.run_of_fault
    {provider : Provider σ}
    {request : Request}
    {answer : Answer}
    {fault : Fault}
    {state later : σ}
    (makes : reading.Makes raw address block (request :: requests) result)
    (ends : provider request state = (answer, later))
    (isFault : answer.word request = .error fault) :
    provider.run address block reading state = (.error fault, later) := by
  cases makes with
  | refused canShow | word canShow =>
      exact Provider.run_word_of_fault canShow ends isFault _

/--
If a request has no word in the end, its fault is the result, and no request
follows it.
-/
theorem Makes.run_withRetries_of_fault
    (starts : policy.obstacle? = none)
    (isMost : policy.maxRetries = most)
    (writable : policy.maxRetries < Value.writableBound)
    (makes : reading.Makes raw address block requests result)
    {before after : List Request}
    {request : Request}
    (isRequest : requests = before ++ request :: after)
    {call next : Nat}
    {seen : List Request}
    (repeats : script.Repeats most call before seen next)
    {answer : Answer}
    {fault : Fault}
    {state : Nat × List Request}
    {kept : List Request}
    (ends :
      (Provider.scripted raw script).recording.withRetries policy request
          (next, kept ++ seen) =
        (answer, state))
    (isFault : answer.word request = .error fault) :
    ((Provider.scripted raw script).recording.withRetries policy).run
        address block reading (call, kept) =
      (.error fault, state) := by
  induction makes generalizing call before seen kept with
  | done | hidden =>
      cases before <;> cases isRequest
  | refused canShow isRefused =>
      cases repeats with
      | nil call =>
          cases isRequest
          rw [List.append_nil] at ends
          exact Makes.run_of_fault (.refused canShow isRefused) ends isFault
      | cons =>
          simp at isRequest
  | word canShow isWord makesRest inductionHypothesis =>
      cases repeats with
      | nil call =>
          cases isRequest
          rw [List.append_nil] at ends
          exact Makes.run_of_fault (.word canShow isWord makesRest) ends isFault
      | cons fails fewFailures isAnswered goesOn =>
          cases isRequest
          rw [← List.append_assoc] at ends
          rw [Provider.run_word_of_answer canShow
            (Provider.withRetries_of_answered starts isMost writable fails
              fewFailures isAnswered _ kept) isWord]
          exact inductionHypothesis rfl goesOn ends

end Reading

namespace Contract

/--
Repeated attempts hide failures as long as no request fails too often.

Without cancellations, and with no more failures in a row than there are
further attempts, a cursor has the value or the fault that it has with a
provider that never fails, and every request is repeated until it is answered.
A request that fails in all its attempts, or in one that is cancelled, is the
last one, and its fault is the result.
-/
theorem read_withRetries
    {policy : RetryPolicy}
    {most : Nat}
    (hasTime : 0 < policy.timeoutMs)
    (keepsTime : policy.timeoutMs < RetryPolicy.timeLimitBound)
    (isMost : policy.maxRetries = most)
    (writable : policy.maxRetries < Value.writableBound)
    (hash : Digest)
    (contract : Contract)
    (cursor : Cursor)
    (raw : Request → Value)
    (script : Script)
    (first : Nat) :
    ∃ result requests,
      contract.read hash (Provider.answering raw).recording cursor ((), []) =
        (result, (), requests) ∧
      ((∀ call, ∃ attempt ≤ most, script (call + attempt) = none) →
        (∀ call, script call ≠ some .cancelled) →
          ∃ seen later,
            script.Repeats most first requests seen later ∧
              contract.read hash
                ((Provider.scripted raw script).recording.withRetries policy)
                  cursor (first, []) =
                (result, later, seen)) ∧
      ∀ before request after seen next errors later,
        requests = before ++ request :: after →
        script.Repeats most first before seen next →
        script.Fails next errors later →
          (errors.length = most + 1 →
            ∃ fault,
              fault.family? = some "StorageIOError" ∧
                fault.message = "Exceeded retry count" ∧
                fault.cause? = errors.getLast? ∧
                contract.read hash
                  ((Provider.scripted raw script).recording.withRetries policy)
                    cursor (first, []) =
                  (.error fault, later,
                    seen ++ List.replicate (most + 1) request)) ∧
          (errors.length ≤ most →
            script later = some .cancelled →
              contract.read hash
                ((Provider.scripted raw script).recording.withRetries policy)
                  cursor (first, []) =
                (.error .cancelled, later + 1,
                  seen ++ List.replicate (errors.length + 1) request)) := by
  have starts := RetryPolicy.obstacle?_eq_none hasTime keepsTime
  obtain ⟨requests, result, makes⟩ :=
    Reading.exists_makes raw cursor.position.address cursor.position.block
      (cursor.resolve hash contract.layout)
  refine ⟨result, requests, makes.run_answering [],
    fun transient notCancelled => ?_, ?_⟩
  · obtain ⟨seen, later, repeats⟩ :=
      Script.exists_repeats transient notCancelled requests first
    exact ⟨seen, later, repeats,
      makes.run_withRetries starts isMost writable repeats []⟩
  · intro before request after seen next errors later isRequest repeats fails
    constructor
    · intro allFailed
      refine ⟨.read (.retriesExceeded errors.getLast?), rfl, rfl, rfl, ?_⟩
      exact makes.run_withRetries_of_fault starts isMost writable
        isRequest repeats
        (Provider.withRetries_of_exhausted starts isMost writable fails
          allFailed request seen) rfl
    · intro fewFailures isCancelled
      exact makes.run_withRetries_of_fault starts isMost writable
        isRequest repeats
        (Provider.withRetries_of_cancelled starts isMost writable fails
          fewFailures isCancelled request seen) rfl

/-- Every request of a slot is answered with the number of the slot. -/
def slotNumber (request : Request) : Value :=
  .int request.slot

/-- Every other call hangs, beginning with the first one. -/
def everyOther : Script :=
  fun call => if call % 2 = 0 then some .hangs else none

/-- A request for the pair at the last slot. -/
def pairRequest (slot : Int) : Request where
  address := "0x00"
  slot := slot
  block := .text "latest"

/--
A request that is made at an even call is seen twice, and answered at the odd
call behind.
-/
theorem repeats_everyOther
    {call later : Nat}
    {request : Request}
    {requests seen : List Request}
    (isEven : call % 2 = 0)
    (repeats : everyOther.Repeats 1 call (request :: requests) seen later) :
    ∃ others,
      seen = request :: request :: others ∧
        everyOther.Repeats 1 (call + 2) requests others later := by
  cases repeats with
  | @cons _ answered _ errors _ _ others fails fewFailures isAnswered goesOn =>
      cases fails with
      | nil =>
          simp [everyOther, isEven] at isAnswered
      | cons goesWrong isError fails =>
          cases fails with
          | nil =>
              exact ⟨others, rfl, goesOn⟩
          | cons goesWrong =>
              have isOdd : (call + 1) % 2 ≠ 0 := by
                omega
              simp [everyOther, isOdd] at goesWrong

/--
A pair is read although the first call for each of its slots hangs; without a
second attempt the first of these calls is the last one.
-/
theorem read_pair_withRetries :
    (∃ later,
      arrays.read Keccak.digest
          ((Provider.scripted slotNumber everyOther).recording.withRetries
            ⟨1000, 1⟩)
          pairCursor (0, []) =
        (.ok (.list [.int (2 ^ 256 - 1), .int 0]), later,
          [pairRequest (2 ^ 256 - 1), pairRequest (2 ^ 256 - 1), pairRequest 0,
            pairRequest 0])) ∧
      ∃ fault,
        fault.cause? = some .timedOut ∧
          arrays.read Keccak.digest
              ((Provider.scripted slotNumber everyOther).recording.withRetries
                ⟨1000, 0⟩)
              pairCursor (0, []) =
            (.error fault, 1, [pairRequest (2 ^ 256 - 1)]) := by
  have isValue :
      (arrays.read Keccak.digest
        (Provider.answering slotNumber).recording pairCursor
          ((), [])).1 =
        .ok (.list [.int (2 ^ 256 - 1), .int 0]) :=
    Outcome.eq_ok_of_toOption (by decide +kernel)
  have areRequests :
      (arrays.read Keccak.digest
        (Provider.answering slotNumber).recording pairCursor
          ((), [])).2.2 =
        [pairRequest (2 ^ 256 - 1), pairRequest 0] := by
    decide +kernel
  have transient :
      ∀ call, ∃ attempt ≤ 1, everyOther (call + attempt) = none := by
    intro call
    rcases Nat.mod_two_eq_zero_or_one call with isEven | isOdd
    · exact ⟨1, le_rfl, if_neg (by omega)⟩
    · exact ⟨0, Nat.zero_le 1, if_neg (by omega)⟩
  have notCancelled : ∀ call, everyOther call ≠ some .cancelled := by
    intro call
    unfold everyOther
    split <;> simp
  constructor
  · obtain ⟨result, requests, clean, hidden, -⟩ :=
      @read_withRetries ⟨1000, 1⟩ 1 (by decide) (by decide +kernel) rfl
        (by decide +kernel)
        Keccak.digest arrays pairCursor slotNumber everyOther 0
    rw [clean] at isValue areRequests
    cases isValue
    cases areRequests
    obtain ⟨seen, later, repeats, isRead⟩ := hidden transient notCancelled
    obtain ⟨behindFirst, rfl, repeatsSecond⟩ := repeats_everyOther rfl repeats
    obtain ⟨behindSecond, rfl, repeatsNone⟩ :=
      repeats_everyOther rfl repeatsSecond
    cases repeatsNone
    exact ⟨_, isRead⟩
  · obtain ⟨result, requests, clean, -, ended⟩ :=
      @read_withRetries ⟨1000, 0⟩ 0 (by decide) (by decide +kernel) rfl
        (by decide +kernel)
        Keccak.digest arrays pairCursor slotNumber everyOther 0
    rw [clean] at areRequests
    cases areRequests
    obtain ⟨fault, -, -, isCause, isRead⟩ :=
      (ended [] _ _ [] 0 [.timedOut] 1 rfl (.nil 0) (.cons rfl rfl (.nil 1))).1
        rfl
    exact ⟨fault, isCause, isRead⟩

/--
With a time limit that no clock can be set to, a pair is not read although no
call fails.
-/
theorem read_pair_with_large_limit :
    (arrays.read Keccak.digest
      (Provider.answering slotNumber).recording pairCursor ((), [])).1 =
        .ok (.list [.int (2 ^ 256 - 1), .int 0]) ∧
      ∃ fault,
        fault.cause? = some .timeLimitTooLarge ∧
          arrays.read Keccak.digest
              ((Provider.scripted slotNumber
                fun _ => none).recording.withRetries ⟨10 ^ 400, 1⟩)
              pairCursor (0, []) =
            (.error fault, 0, []) := by
  have tooLarge :
      RetryPolicy.timeLimitBound ≤
        (RetryPolicy.mk (10 ^ 400) 1).timeoutMs.natAbs := by
    decide +kernel
  obtain ⟨error, saysExhausted, exhausted⟩ :=
    Provider.attemptAll_of_timeLimitTooLarge tooLarge (by decide +kernel)
      (Provider.scripted slotNumber fun _ => none).recording
        (pairRequest (2 ^ 256 - 1)) (0, [])
  obtain ⟨requests, result, makes⟩ :=
    Reading.exists_makes slotNumber pairCursor.position.address
      pairCursor.position.block (pairCursor.resolve Keccak.digest arrays.layout)
  have areRequests :
      (arrays.read Keccak.digest
        (Provider.answering slotNumber).recording pairCursor
          ((), [])).2.2 =
        [pairRequest (2 ^ 256 - 1), pairRequest 0] := by
    decide +kernel
  rw [read, makes.run_answering, List.nil_append] at areRequests
  cases areRequests
  refine ⟨Outcome.eq_ok_of_toOption (by decide +kernel), ?_⟩
  cases error with
  | retriesExceeded last =>
      exact ⟨.read (.retriesExceeded last), saysExhausted.cause,
        makes.run_of_fault (by rw [Provider.withRetries, exhausted]) rfl⟩
  | _ =>
      cases saysExhausted.cause

end Contract

end EvmStorage
