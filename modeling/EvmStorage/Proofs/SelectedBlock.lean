import EvmStorage.Proofs.Requests
import EvmStorage.Proofs.WellPlaced

namespace EvmStorage

/-!
# The block that is read

On the way to a value another block may be chosen at any point, for the
contract and for every cursor.  The choice changes nothing else of what is
reached: the steps lead to the same place or fail in the same way, and the last
choice is the one that counts.  All words of the value are then asked for at
this block, so what a provider would answer at other blocks does not matter.
-/

namespace Position

variable {hash : Digest} {layout : Layout} {position next : Position}
  {type : TypeEntry} {step : Step}

/-- The same position at another block. -/
def atBlock
    (position : Position)
    (block : Value) :
    Position :=
  { position with block := block }

theorem member_atBlock
    (name block : Value) :
    (position.atBlock block).member type name =
      (position.member type name).map (·.atBlock block) := by
  simp only [member, Outcome.map_bind]
  rfl

theorem entry_atBlock
    (key block : Value) :
    (position.atBlock block).entry hash type key =
      (position.entry hash type key).map (·.atBlock block) := by
  unfold entry
  split
  · rw [Outcome.map_bind]
    rfl
  · rfl

theorem element_atBlock
    (index block : Value) :
    (position.atBlock block).element hash layout type index =
      (position.element hash layout type index).map (·.atBlock block) := by
  simp only [element, Outcome.map_bind]
  rfl

/--
A step from a position at another block leads to the same position at that
block.
-/
theorem step_atBlock
    (block : Value) :
    (position.atBlock block).step hash layout step =
      (position.step hash layout step).map (·.atBlock block) := by
  have within (type : TypeEntry) :
      (position.atBlock block).stepWithin hash layout type step =
        (position.stepWithin hash layout type step).map (·.atBlock block) := by
    cases step with
    | field name =>
        simp only [stepWithin]
        split
        · exact member_atBlock name block
        · rfl
    | key key =>
        simp only [stepWithin]
        split
        · exact entry_atBlock key block
        · rfl
    | index index =>
        simp only [stepWithin]
        split
        · exact element_atBlock index block
        · rfl
  simp only [Position.step, Outcome.map_bind, within]
  rfl

/-- A step keeps the contract and the block. -/
theorem frame_of_step
    (stepped : position.step hash layout step = .ok next) :
    next.address = position.address ∧ next.block = position.block := by
  obtain ⟨type, -, stepped⟩ := Outcome.bind_eq_ok_iff.mp stepped
  cases step with
  | field name =>
      simp only [stepWithin] at stepped
      split at stepped
      · obtain ⟨found, -, isNext⟩ := Outcome.bind_eq_ok_iff.mp stepped
        cases isNext
        exact ⟨rfl, rfl⟩
      · cases stepped
  | key key =>
      simp only [stepWithin, entry] at stepped
      split at stepped
      · split at stepped
        · obtain ⟨slot, -, isNext⟩ := Outcome.bind_eq_ok_iff.mp stepped
          cases isNext
          exact ⟨rfl, rfl⟩
        · cases stepped
      · cases stepped
  | index index =>
      simp only [stepWithin, element] at stepped
      split at stepped
      · simp only [Outcome.bind_eq_ok_iff] at stepped
        obtain ⟨_, -, _, -, _, -, place, -, isNext⟩ := stepped
        cases isNext
        exact ⟨rfl, rfl⟩
      · cases stepped

end Position

namespace Cursor

variable {hash : Digest} {layout : Layout} {cursor next : Cursor} {step : Step}

/--
A step from a cursor at another block leads to the same cursor at that block.
-/
theorem step_atBlock
    (block : Value) :
    (cursor.atBlock block).step hash layout step =
      (cursor.step hash layout step).map (·.atBlock block) := by
  have isPosition :
      (cursor.atBlock block).position = cursor.position.atBlock block :=
    rfl
  unfold Cursor.step
  rw [isPosition, Position.step_atBlock block]
  split
  · simp only [Outcome.map_bind, Outcome.bind_map, ofPosition]
    rfl
  · rfl

/-- A call on a cursor: a step, or the choice of another block. -/
inductive Call where
  | step (taken : Step)
  | atBlock (block : Value)

/-- The block that a call chooses. -/
def Call.block? : Call → Option Value
  | .step _ => none
  | .atBlock block => some block

/-- Calls without those that choose a block. -/
def stepsOf (calls : List Call) : List Call :=
  calls.filter fun call => call.block?.isNone

/-- The block chosen last by calls, or the one that there was before. -/
def lastBlock
    (before : Value)
    (calls : List Call) :
    Value :=
  (calls.filterMap Call.block?).getLastD before

/-- The cursor that a call leads to. -/
def call
    (hash : Digest)
    (layout : Layout)
    (cursor : Cursor) :
    Call →
    Except Fault Cursor
  | .step taken => cursor.step hash layout taken
  | .atBlock block => .ok (cursor.atBlock block)

/--
Steps from a cursor at another block lead to the same cursor at that block.
-/
theorem calls_atBlock
    (calls : List Call)
    (block : Value) :
    (stepsOf calls).foldlM (call hash layout) (cursor.atBlock block) =
      ((stepsOf calls).foldlM (call hash layout) cursor).map
        (·.atBlock block) := by
  induction calls generalizing cursor with
  | nil =>
      rfl
  | cons first rest inductionHypothesis =>
      cases first with
      | atBlock chosen =>
          exact inductionHypothesis
      | step taken =>
          simp only [stepsOf, Call.block?, Option.isNone_none,
            List.filter_cons_of_pos, List.foldlM_cons, call, step_atBlock block]
          cases cursor.step hash layout taken with
          | error fault =>
              rfl
          | ok next =>
              exact inductionHypothesis

/-- Calls lead to where their steps lead, at the block that was chosen last. -/
theorem calls_eq
    (calls : List Call) :
    calls.foldlM (call hash layout) cursor =
      ((stepsOf calls).foldlM (call hash layout) cursor).map
        (·.atBlock (lastBlock cursor.position.block calls)) := by
  induction calls generalizing cursor with
  | nil =>
      rfl
  | cons first rest inductionHypothesis =>
      cases first with
      | atBlock chosen =>
          have isLast (before : Value) :
              lastBlock before (.atBlock chosen :: rest) =
                lastBlock chosen rest :=
            List.getLastD_cons ..
          have sameSteps : stepsOf (.atBlock chosen :: rest) = stepsOf rest :=
            rfl
          rw [List.foldlM_cons, call, Outcome.ok_bind, inductionHypothesis,
            calls_atBlock, isLast, sameSteps]
          cases (stepsOf rest).foldlM (call hash layout) cursor with
          | error fault =>
              rfl
          | ok last =>
              rfl
      | step taken =>
          have sameBlocks (before : Value) :
              lastBlock before (.step taken :: rest) = lastBlock before rest :=
            rfl
          have moreSteps :
              stepsOf (.step taken :: rest) = .step taken :: stepsOf rest :=
            rfl
          rw [sameBlocks, moreSteps, List.foldlM_cons, List.foldlM_cons, call]
          cases stepped : cursor.step hash layout taken with
          | error fault =>
              rfl
          | ok next =>
              have sameBlock :=
                (Position.frame_of_step (position_of_step stepped)).2
              rw [Outcome.ok_bind, Outcome.ok_bind, inductionHypothesis,
                sameBlock]

/-- Calls lead to cursors on the same contract. -/
theorem address_of_calls
    {calls : List Call}
    (reached : calls.foldlM (call hash layout) cursor = .ok next) :
    next.position.address = cursor.position.address := by
  induction calls generalizing cursor with
  | nil =>
      cases reached
      rfl
  | cons first rest inductionHypothesis =>
      obtain ⟨between, isBetween, goesOn⟩ := Outcome.bind_eq_ok_iff.mp reached
      rw [inductionHypothesis goesOn]
      cases first with
      | atBlock chosen =>
          cases isBetween
          rfl
      | step taken =>
          exact (Position.frame_of_step (position_of_step isBetween)).1

end Cursor

namespace Provider

variable {provider : Provider σ} {address : String} {block : Value}

/--
Every request of a reading is for the contract and the block that are read.
-/
theorem mem_requests_of_run
    {reading : Reading α}
    {state : σ}
    {requests : List Request}
    {request : Request}
    (asked :
      request ∈
        (provider.recording.run address block reading (state, requests)).2.2) :
    request ∈ requests ∨ request.address = address ∧ request.block = block := by
  induction reading generalizing state requests with
  | done result =>
      exact .inl asked
  | word slot next inductionHypothesis =>
      have ofThis
          (isIn :
            request ∈ requests ++
              [{ address := address, slot := slot, block := block }]) :
          request ∈ requests ∨
            request.address = address ∧ request.block = block := by
        rcases List.mem_append.mp isIn with before | isThis
        · exact .inl before
        · cases List.mem_singleton.mp isThis
          exact .inr ⟨rfl, rfl⟩
      cases canShow : block.canShow with
      | false =>
          rw [run_word_of_hidden canShow] at asked
          exact .inl asked
      | true =>
          cases isWord :
              (provider { address, slot, block } state).1.word
                { address, slot, block } with
          | ok word =>
              rw [run_recording_word canShow isWord] at asked
              rcases inductionHypothesis word asked with before | ofReading
              · exact ofThis before
              · exact .inr ofReading
          | error fault =>
              rw [run_recording_word_of_error canShow isWord] at asked
              exact ofThis asked

/--
Whether two providers agree on the words of a contract at a block: from states
that are related they give the same word of a slot, or fail in the same way,
and their next states are related again.
-/
structure AgreeAt
    (first : Provider σ)
    (second : Provider τ)
    (address : String)
    (block : Value)
    (related : σ → τ → Prop) :
    Prop where
  sameWord :
    ∀ slot state other,
      related state other →
      (first { address, slot, block } state).1.word { address, slot, block } =
        (second { address, slot, block } other).1.word { address, slot, block }
  staysRelated :
    ∀ slot state other,
      related state other →
      related (first { address, slot, block } state).2
        (second { address, slot, block } other).2

/-- A reading comes to the same with providers that agree on what is read. -/
theorem AgreeAt.run_eq
    {first : Provider σ}
    {second : Provider τ}
    {related : σ → τ → Prop}
    (agree : first.AgreeAt second address block related)
    {state : σ}
    {other : τ}
    (isRelated : related state other)
    (reading : Reading α) :
    (first.run address block reading state).1 =
      (second.run address block reading other).1 := by
  induction reading generalizing state other with
  | done result =>
      rfl
  | word slot next inductionHypothesis =>
      cases canShow : block.canShow with
      | false =>
          rw [run_word_of_hidden canShow, run_word_of_hidden canShow]
      | true =>
          have sameWord := agree.sameWord slot state other isRelated
          cases isWord :
              (second { address, slot, block } other).1.word
                { address, slot, block } with
          | ok word =>
              rw [run_word_of_ok canShow (sameWord.trans isWord),
                run_word_of_ok canShow isWord]
              exact inductionHypothesis word
                (agree.staysRelated slot state other isRelated)
          | error fault =>
              rw [run_word_of_error canShow (sameWord.trans isWord),
                run_word_of_error canShow isWord]

end Provider

namespace Contract

variable {hash : Digest} {contract : Contract} {cursor : Cursor}

/--
The cursor that calls lead to: first blocks are chosen for the contract, then
there is the cursor on a variable, and then calls on cursors.
-/
def reach
    (hash : Digest)
    (contract : Contract)
    (blocks : List Value)
    (label : Value)
    (calls : List Cursor.Call) :
    Except Fault Cursor := do
  let start ← (blocks.foldl Contract.atBlock contract).cursorOn label
  calls.foldlM (Cursor.call hash contract.layout) start

/-- The block chosen last on a way, for a cursor or for the contract. -/
def selectedBlock
    (contract : Contract)
    (blocks : List Value)
    (calls : List Cursor.Call) :
    Value :=
  Cursor.lastBlock (blocks.getLastD contract.defaultBlock) calls

/-- Of the blocks that are chosen for a contract the last one counts. -/
theorem foldl_atBlock
    (blocks : List Value) :
    blocks.foldl atBlock contract =
      contract.atBlock (blocks.getLastD contract.defaultBlock) := by
  induction blocks generalizing contract with
  | nil =>
      rfl
  | cons first rest inductionHypothesis =>
      rw [List.foldl_cons, inductionHypothesis, List.getLastD_cons]
      rfl

/--
The cursor on a variable of a contract at another block is the same at that
block.
-/
theorem cursorOn_atBlock
    (label block : Value) :
    (contract.atBlock block).cursorOn label =
      (contract.cursorOn label).map (·.atBlock block) := by
  simp only [cursorOn, Cursor.ofPosition, Outcome.map_bind]
  rfl

/-- The cursor on a variable is on the contract, at its block. -/
theorem frame_of_cursorOn
    {label : Value}
    (onVariable : contract.cursorOn label = .ok cursor) :
    cursor.position.address = contract.address ∧
      cursor.position.block = contract.defaultBlock := by
  simp only [cursorOn, Cursor.ofPosition, Outcome.bind_eq_ok_iff,
    Outcome.pure_eq_ok, Except.ok.injEq] at onVariable
  obtain ⟨_, _, _, _, rfl⟩ := onVariable
  exact ⟨rfl, rfl⟩

/-- Blocks that are chosen on the way change nothing but the block. -/
theorem reach_eq
    (blocks : List Value)
    (label : Value)
    (calls : List Cursor.Call) :
    contract.reach hash blocks label calls =
      (contract.reach hash [] label (Cursor.stepsOf calls)).map
        (·.atBlock (contract.selectedBlock blocks calls)) := by
  have noBlocks : [].foldl atBlock contract = contract :=
    rfl
  unfold reach selectedBlock
  rw [foldl_atBlock, cursorOn_atBlock, noBlocks]
  cases contract.cursorOn label with
  | error fault =>
      rfl
  | ok start =>
      simp only [Except.map, Outcome.ok_bind]
      rw [Cursor.calls_eq, Cursor.calls_atBlock]
      cases (Cursor.stepsOf calls).foldlM
        (Cursor.call hash contract.layout) start with
      | error fault =>
          rfl
      | ok last =>
          rfl

/--
Where calls lead to is on the contract, at the block that was chosen last.
-/
theorem frame_of_reach
    {blocks : List Value}
    {label : Value}
    {calls : List Cursor.Call}
    (reached : contract.reach hash blocks label calls = .ok cursor) :
    cursor.position.address = contract.address ∧
      cursor.position.block = contract.selectedBlock blocks calls := by
  have sameSteps := reached
  rw [reach_eq] at sameSteps
  obtain ⟨plain, reachedPlain, rfl⟩ := Outcome.map_eq_ok_iff.mp sameSteps
  obtain ⟨start, onVariable, goesOn⟩ := Outcome.bind_eq_ok_iff.mp reachedPlain
  refine ⟨?_, rfl⟩
  exact (Cursor.address_of_calls goesOn).trans (frame_of_cursorOn onVariable).1

/--
The choice of a block changes nothing else, and all is read at this block.

A way with choices of blocks leads to where its steps lead, or fails with the
same fault, and the block is the one chosen last.  Every word of the value is
asked for at this block, of the contract itself, so two providers that agree on
its words there give the same value or the same fault.
-/
theorem read_at_selectedBlock
    (hash : Digest)
    (contract : Contract)
    (blocks : List Value)
    (label : Value)
    (calls : List Cursor.Call) :
    contract.reach hash blocks label calls =
        (contract.reach hash [] label (Cursor.stepsOf calls)).map
          (·.atBlock (contract.selectedBlock blocks calls)) ∧
      ∀ cursor,
        contract.reach hash blocks label calls = .ok cursor →
        (∀ (σ : Type) (provider : Provider σ) (state : σ),
          ∀ request ∈
            (contract.read hash provider.recording cursor (state, [])).2.2,
            request.address = contract.address ∧
              request.block = contract.selectedBlock blocks calls) ∧
        ∀ (σ τ : Type) (first : Provider σ) (second : Provider τ)
          (related : σ → τ → Prop),
          first.AgreeAt second contract.address
            (contract.selectedBlock blocks calls) related →
          ∀ state other,
            related state other →
            (contract.read hash first cursor state).1 =
              (contract.read hash second cursor other).1 := by
  refine ⟨reach_eq blocks label calls, fun cursor reached => ?_⟩
  obtain ⟨isAddress, isBlock⟩ := frame_of_reach reached
  constructor
  · intro σ provider state request asked
    rw [← isAddress, ← isBlock]
    rcases Provider.mem_requests_of_run asked with before | ofReading
    · cases before
    · exact ofReading
  · intro σ τ first second related agree state other isRelated
    rw [← isAddress, ← isBlock] at agree
    exact agree.run_eq isRelated _

/--
A provider whose words are a number at one block, and whose calls end as given
at all others.
-/
def providerAt
    (block : Value)
    (n : Int)
    (elsewhere : Answer) :
    Provider Unit :=
  fun request state =>
    (if request.block = block then .value (.int n) else elsewhere, state)

/--
The way to a flag of an account on which a block is chosen between two steps.
-/
def callsAtBlock : List Cursor.Call :=
  [.step (.key (.int 7)), .atBlock (.int 17), .step (.field (.text "flags")),
    .step (.index (.int 33))]

/--
The flag of an account is read at the block that is chosen on the way, whatever
the calls at the other blocks bring, and also if they are cancelled.
-/
theorem read_flag_at_block :
    ∃ cursor,
      ledger.reach Keccak.digest [.int 5] (.text "accounts") callsAtBlock =
        .ok cursor ∧
        cursor.position.block = .int 17 ∧
        ∀ elsewhere,
          (ledger.read Keccak.digest
            (providerAt (.int 17) 256 elsewhere) cursor ()).1 =
            .ok (.bool true) := by
  have reached :
      ((ledger.reach Keccak.digest [.int 5] (.text "accounts") callsAtBlock).map
        fun cursor =>
        (cursor.position.block,
          (ledger.read Keccak.digest
            (providerAt (.int 17) 256 .cancelled) cursor ()).1.toOption)) =
        .ok (.int 17, some (.bool true)) :=
    Outcome.eq_ok_of_toOption (by decide +kernel)
  obtain ⟨cursor, isReached, isRead⟩ := Outcome.map_eq_ok_iff.mp reached
  obtain ⟨isBlock, isRead⟩ := Prod.mk.inj isRead
  refine ⟨cursor, isReached, isBlock, fun elsewhere => ?_⟩
  have agree :
      (providerAt (.int 17) 256 elsewhere).AgreeAt
        (providerAt (.int 17) 256 .cancelled)
        ledger.address (ledger.selectedBlock [.int 5] callsAtBlock) fun _ _ =>
          True :=
    { sameWord := fun _ _ _ _ => rfl
      staysRelated := fun _ _ _ _ => trivial }
  have sameValue :=
    ((read_at_selectedBlock Keccak.digest ledger [.int 5]
      (.text "accounts") callsAtBlock).2
      cursor isReached).2 Unit Unit _ _ _ agree () () trivial
  rw [sameValue]
  exact Outcome.eq_ok_of_toOption isRead

end Contract

end EvmStorage
