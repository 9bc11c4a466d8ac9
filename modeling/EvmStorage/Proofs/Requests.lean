import EvmStorage.Proofs.Memory

namespace EvmStorage

/-!
# Requests that are made

A provider can be made to keep the requests that it is asked, in their order.
It answers as before, so what is read through it is the same, and the list it
keeps says which slots were asked for on the way.
-/

namespace Provider

/-- A provider that keeps the requests it answers, first one first. -/
def recording (provider : Provider σ) : Provider (σ × List Request) :=
  fun request (state, requests) =>
    ((provider request state).1, (provider request state).2,
      requests ++ [request])

/-- The requests for slots of a contract at a block. -/
def requestsFor
    (address : String)
    (block : Value)
    (slots : List Int) :
    List Request :=
  slots.map fun slot => { address, slot, block }

variable {provider : Provider σ} {address : String} {block : Value}
  {memory : Memory} {state : σ} {requests : List Request}

section Steps

variable {slot : Int}

/-- A word that is asked for is kept as a request. -/
theorem run_recording_word
    {word : Bytes}
    (canShow : block.canShow)
    (answered :
      (provider { address, slot, block } state).1.word
          { address, slot, block } =
        .ok word)
    (next : Bytes → Reading α) :
    provider.recording.run address block (.word slot next) (state, requests) =
      provider.recording.run address block (next word)
        ((provider { address, slot, block } state).2,
          requests ++ requestsFor address block [slot]) := by
  have isWord :
      (provider.recording { address, slot, block } (state, requests)).1.word
          { address, slot, block } =
        .ok word :=
    answered
  exact run_word_of_ok canShow isWord next

/-- A request is kept as well if it brings no word; it is the last one. -/
theorem run_recording_word_of_error
    {fault : Fault}
    (canShow : block.canShow)
    (failed :
      (provider { address, slot, block } state).1.word
          { address, slot, block } =
        .error fault)
    (next : Bytes → Reading α) :
    provider.recording.run address block (.word slot next) (state, requests) =
      (.error fault, (provider { address, slot, block } state).2,
        requests ++ requestsFor address block [slot]) := by
  have isFault :
      (provider.recording { address, slot, block } (state, requests)).1.word
          { address, slot, block } =
        .error fault :=
    failed
  exact run_word_of_error canShow isFault next

end Steps

/--
Keeping requests changes neither what is read nor what becomes of the provider.
-/
theorem run_recording
    (reading : Reading α) :
    (provider.recording.run address block reading (state, requests)).1 =
        (provider.run address block reading state).1 ∧
      (provider.recording.run address block reading (state, requests)).2.1 =
        (provider.run address block reading state).2 := by
  induction reading generalizing state requests with
  | done result =>
      exact ⟨rfl, rfl⟩
  | word slot next inductionHypothesis =>
      cases canShow : block.canShow with
      | false =>
          rw [run_word_of_hidden canShow, run_word_of_hidden canShow]
          exact ⟨rfl, rfl⟩
      | true =>
          cases isWord :
              (provider { address, slot, block } state).1.word
                { address, slot, block } with
          | ok word =>
              rw [run_recording_word canShow isWord,
                run_word_of_ok canShow isWord]
              exact inductionHypothesis word
          | error fault =>
              rw [run_recording_word_of_error canShow isWord,
                run_word_of_error canShow isWord]
              exact ⟨rfl, rfl⟩

/-- The word of a slot is read with one request. -/
theorem Serves.run_recording_word
    (serves : provider.Serves address block memory state)
    (canShow : block.canShow)
    (requests : List Request)
    {slot : Int}
    (inside : inSlotSpace slot = true)
    (next : Bytes → Reading α) :
    ∃ later,
      provider.Serves address block memory later ∧
        provider.recording.run address block (.word slot next)
            (state, requests) =
          provider.recording.run address block (next (memory.word slot))
            (later, requests ++ requestsFor address block [slot]) := by
  obtain ⟨serving, isServing, goesOn⟩ := serves
  obtain ⟨answered, isServingLater⟩ := goesOn state isServing slot inside
  exact ⟨_, ⟨serving, isServingLater, goesOn⟩,
    Provider.run_recording_word canShow answered next⟩

/-- Consecutive slots, counted modulo their number. -/
def consecutive
    (start : Int)
    (count : Nat) :
    List Int :=
  (List.range count).map fun (index : Nat) => (start + index) % slotModulus

/-- The first of consecutive slots comes before those from the next slot on. -/
theorem consecutive_succ
    (start : Int)
    (count : Nat) :
    consecutive start (count + 1) =
      start % slotModulus :: consecutive (start + 1) count := by
  have next (index : Nat) :
      start + ((index : Int) + 1) = start + 1 + index := by
    omega
  simp [consecutive, List.range_succ_eq_map, next]

/--
The words of consecutive slots are read with one request for each, in their
order.
-/
theorem Serves.run_recording_slots
    (serves : provider.Serves address block memory state)
    (canShow : block.canShow)
    (requests : List Request)
    (start : Int)
    (count : Nat)
    (result : List Bytes → Except Fault α) :
    ∃ later,
      provider.recording.run address block
          (Reading.slots start count fun words => .done (result words))
          (state, requests) =
        (result (memory.words start count), later,
          requests ++ requestsFor address block (consecutive start count)) := by
  induction count generalizing requests start result state with
  | zero =>
      refine ⟨state, ?_⟩
      simp [Reading.slots, run, Memory.words, consecutive, requestsFor]
  | succ count inductionHypothesis =>
      obtain ⟨between, servesBetween, goesOn⟩ :=
        serves.run_recording_word canShow requests (inSlotSpace_emod start)
          (fun content =>
            Reading.slots (start + 1) count fun contents =>
              .done (result (content :: contents)))
      obtain ⟨later, isRead⟩ :=
        inductionHypothesis servesBetween _ (start + 1)
          (fun contents =>
            result (memory.word (start % slotModulus) :: contents))
      refine ⟨later, ?_⟩
      rw [Reading.slots, goesOn, isRead, Memory.words_succ, consecutive_succ]
      simp [requestsFor]

end Provider

/-- Keeping requests does not change what is read at a cursor. -/
theorem Contract.read_recording
    {hash : Digest}
    {contract : Contract}
    {provider : Provider σ}
    {cursor : Cursor}
    {state : σ}
    (requests : List Request) :
    (contract.read hash provider.recording cursor (state, requests)).1 =
      (contract.read hash provider cursor state).1 :=
  (Provider.run_recording _).1

end EvmStorage
