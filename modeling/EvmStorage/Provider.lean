import EvmStorage.Address
import EvmStorage.Reading

namespace EvmStorage

/-!
# Providers

A provider answers requests for raw words and may change its state with every
answer.  A reading is run by asking the provider for one word after the other;
the first request that brings no word ends it.  So does a block that cannot be
shown, since every request is logged before it is made.
-/

/-- A request for the word of a slot of a contract at a block. -/
structure Request where
  address : String
  slot : Int
  block : Value
  deriving DecidableEq

/-- What a provider answers. -/
inductive Answer where
  | value (raw : Value)
  | failed (error : CallError)
  | cancelled
  | silent

/-- A way to answer requests that depends on a state and changes it. -/
abbrev Provider (σ : Type) :=
  Request → σ → Answer × σ

/-- The fault of a request whose call ended with an error. -/
def CallError.fault
    (error : CallError)
    (request : Request) :
    Fault :=
  match error with
  | .raised failure =>
      if failure.kind.isReported then
        .relayed failure
      else
        .read (.failed request.slot request.address request.block error)
  | .retriesExceeded last => .read (.retriesExceeded last)
  | _ => .read (.failed request.slot request.address request.block error)

/-- The word that an answer gives. -/
def Answer.word
    (answer : Answer)
    (request : Request) :
    Except Fault Bytes :=
  match answer with
  | .value raw => Word.ofRaw raw
  | .failed error => .error (error.fault request)
  | .cancelled => .error .cancelled
  | .silent => .error .unanswered

namespace Provider

/-- A provider that asks another one under the checked text of the address. -/
def withCheckedAddress
    (hash : Digest)
    (provider : Provider σ) :
    Provider σ :=
  fun request state =>
    match Address.ofText? request.address with
    | some content =>
        provider { request with address := Address.checksum hash content } state
    | none => (.failed .addressRejected, state)

/--
The word that a provider gives for a request, and its state behind the call.

Every request is logged together with its block before the provider is called;
if the block cannot be shown there is no call.
-/
def ask
    (provider : Provider σ)
    (request : Request)
    (state : σ) :
    Except Fault Bytes × σ :=
  if request.block.canShow then
    let (answer, later) := provider request state
    (answer.word request, later)
  else
    (.error (.misuse .numberTooLong), state)

/-- The result of a reading whose requests a provider answers. -/
def run
    (provider : Provider σ)
    (address : String)
    (block : Value) :
    Reading α →
    σ →
    Except Fault α × σ
  | .done result, state => (result, state)
  | .word slot next, state =>
      match provider.ask { address, slot, block } state with
      | (.ok content, later) => run provider address block (next content) later
      | (.error fault, later) => (.error fault, later)

end Provider

end EvmStorage
