import EvmStorage.Contract
import EvmStorage.Proofs.ByteString
import EvmStorage.Proofs.Outcome
import Mathlib.Data.List.Basic

namespace EvmStorage

/-!
# Memories

A memory is what a contract holds at one block: a word of 32 bytes for every
slot.  A provider serves a memory if it answers every request for a slot that
exists with a raw form of its word, whatever state it is in.  Readings that are
run against such a provider see nothing but the memory, if the block is one
that can be shown.
-/

/-- A word for every slot. -/
structure Memory where
  word : Int → Bytes
  length_word : ∀ slot, (word slot).length = slotSize

/-- There are as many slots as words. -/
theorem slotModulus_eq :
    slotModulus = 2 ^ 256 :=
  rfl

/-- A slot exists if its number is one of as many as there are words. -/
theorem inSlotSpace_iff {slot : Int} :
    inSlotSpace slot ↔ 0 ≤ slot ∧ slot < slotModulus := by
  simp [inSlotSpace]

/-- A slot that is counted modulo the number of slots exists. -/
theorem inSlotSpace_emod (slot : Int) :
    inSlotSpace (slot % slotModulus) = true := by
  have nonneg := Int.emod_nonneg slot (by decide : slotModulus ≠ 0)
  have below := Int.emod_lt_of_pos slot (by decide : 0 < slotModulus)
  simp [inSlotSpace, nonneg, below]

/-- A slot that exists is itself modulo the number of slots. -/
theorem emod_slotModulus_of_inSlotSpace
    {slot : Int}
    (inside : inSlotSpace slot) :
    slot % slotModulus = slot := by
  obtain ⟨nonneg, below⟩ := inSlotSpace_iff.mp inside
  exact Int.emod_eq_of_lt nonneg below

/-- What belongs to a slot that exists starts at the hash of the slot. -/
theorem dataSlot_eq
    {hash : Digest}
    {slot : Int}
    (inside : inSlotSpace slot) :
    dataSlot hash slot = .ok (hash (Word.ofNat slot.toNat) : Int) := by
  simp [dataSlot, inside]

namespace Memory

/-- The words of consecutive slots, counted modulo their number. -/
def words
    (memory : Memory)
    (start : Int)
    (count : Nat) :
    List Bytes :=
  (List.range count).map fun (index : Nat) =>
    memory.word ((start + index) % slotModulus)

@[simp]
theorem length_words
    (memory : Memory)
    (start : Int)
    (count : Nat) :
    (memory.words start count).length = count := by
  simp [words]

/-- The first of several words is that of the slot they start at. -/
theorem words_succ
    (memory : Memory)
    (start : Int)
    (count : Nat) :
    memory.words start (count + 1) =
      memory.word (start % slotModulus) :: memory.words (start + 1) count := by
  have next (index : Nat) :
      start + ((index : Int) + 1) = start + 1 + index := by
    omega
  simp [words, List.range_succ_eq_map, next]

/-- Words are the same from every number of the slot they start at. -/
theorem words_emod
    (memory : Memory)
    (start : Int)
    (count : Nat) :
    memory.words (start % slotModulus) count = memory.words start count := by
  simp [words]

/-- Some of several words are the words from a later slot on. -/
theorem between_words
    (memory : Memory)
    {start first span : Int}
    {count : Nat}
    (firstNonneg : 0 ≤ first)
    (spanNonneg : 0 ≤ span)
    (inside : first + span ≤ count) :
    between (memory.words start count) first (first + span) =
      memory.words (start + first) span.toNat := by
  have notBelow : ¬ first < 0 := by
    omega
  have notBelowEnd : ¬ first + span < 0 := by
    omega
  apply List.ext_getElem
  · simp only [between, if_neg notBelow, if_neg notBelowEnd, List.length_drop,
      List.length_take, length_words]
    omega
  · intro index _ _
    have isFirst : (first.toNat : Int) = first := by
      omega
    simp [between, notBelow, notBelowEnd, words, isFirst, Int.add_assoc]

end Memory

/-- The number of items between two positions that are not below zero. -/
theorem length_between
    {items : List α}
    {start stop : Int}
    (startNonneg : 0 ≤ start)
    (stopNonneg : 0 ≤ stop) :
    (between items start stop).length =
      min stop.toNat items.length - start.toNat := by
  have notBelow : ¬ start < 0 := by
    omega
  have notBelowEnd : ¬ stop < 0 := by
    omega
  simp only [between, if_neg notBelow, if_neg notBelowEnd, List.length_drop,
    List.length_take]

namespace Reading

/-- A reading goes on with a result that is there. -/
@[simp]
theorem done_ok_bind
    (result : α)
    (next : α → Reading β) :
    (Reading.done (.ok result) >>= next) = next result :=
  rfl

/-- A fault ends a reading. -/
@[simp]
theorem done_error_bind
    (fault : Fault)
    (next : α → Reading β) :
    (Reading.done (.error fault) >>= next) = .done (.error fault) :=
  rfl

/-- A reading that asks for the word of a slot goes on with this word. -/
@[simp]
theorem slot_bind
    (number : Int)
    (next : Bytes → Reading β) :
    (Reading.slot number >>= next) = .word number next :=
  rfl

end Reading

namespace Provider

variable {provider : Provider σ} {address : String} {block : Value}
  {memory : Memory} {state : σ}

section Steps

variable {slot : Int} {word : Bytes} {fault : Fault}
variable {answer : Answer} {later : σ}

/-- At a block that can be shown a reading goes on with the word of an answer. -/
theorem run_word_of_answer
    (canShow : block.canShow)
    (answers : provider { address, slot, block } state = (answer, later))
    (isWord : answer.word { address, slot, block } = .ok word)
    (next : Bytes → Reading α) :
    provider.run address block (.word slot next) state =
      provider.run address block (next word) later := by
  simp only [run, ask, canShow, answers, isWord, ↓reduceIte]

/-- At a block that can be shown a reading ends with an answer without a word. -/
theorem run_word_of_fault
    (canShow : block.canShow)
    (answers : provider { address, slot, block } state = (answer, later))
    (isFault : answer.word { address, slot, block } = .error fault)
    (next : Bytes → Reading α) :
    provider.run address block (.word slot next) state =
      (.error fault, later) := by
  simp only [run, ask, canShow, answers, isFault, ↓reduceIte]

/-- At a block that can be shown a reading goes on with the word it is given. -/
theorem run_word_of_ok
    (canShow : block.canShow)
    (answered :
      (provider { address, slot, block } state).1.word
          { address, slot, block } =
        .ok word)
    (next : Bytes → Reading α) :
    provider.run address block (.word slot next) state =
      provider.run address block (next word)
        (provider { address, slot, block } state).2 :=
  run_word_of_answer canShow rfl answered next

/-- At a block that can be shown a reading ends with the fault of a call. -/
theorem run_word_of_error
    (canShow : block.canShow)
    (failed :
      (provider { address, slot, block } state).1.word
          { address, slot, block } =
        .error fault)
    (next : Bytes → Reading α) :
    provider.run address block (.word slot next) state =
      (.error fault, (provider { address, slot, block } state).2) :=
  run_word_of_fault canShow rfl failed next

/-- At a block that cannot be shown a reading ends without a call. -/
theorem run_word_of_hidden
    (hidden : block.canShow = false)
    (next : Bytes → Reading α) :
    provider.run address block (.word slot next) state =
      (.error (.misuse .numberTooLong), state) := by
  simp only [run, ask, hidden, Bool.false_eq_true, ↓reduceIte]

end Steps

/--
Whether a provider in a state answers with the words of a memory, at an address
and a block, and goes on to do so after every answer.
-/
def Serves
    (provider : Provider σ)
    (address : String)
    (block : Value)
    (memory : Memory)
    (state : σ) :
    Prop :=
  ∃ serving : σ → Prop,
    serving state ∧
      ∀ current,
        serving current →
        ∀ slot,
          inSlotSpace slot = true →
          (provider { address, slot, block } current).1.word
            { address, slot, block } =
              .ok (memory.word slot) ∧
            serving (provider { address, slot, block } current).2

/-- A reading that asks for a word goes on with the word of the memory. -/
theorem Serves.run_word
    (serves : provider.Serves address block memory state)
    (canShow : block.canShow)
    {slot : Int}
    (inside : inSlotSpace slot = true)
    (next : Bytes → Reading α) :
    ∃ later,
      provider.Serves address block memory later ∧
        provider.run address block (.word slot next) state =
          provider.run address block (next (memory.word slot)) later := by
  obtain ⟨serving, isServing, goesOn⟩ := serves
  obtain ⟨answered, isServingLater⟩ := goesOn state isServing slot inside
  exact ⟨_, ⟨serving, isServingLater, goesOn⟩,
    run_word_of_ok canShow answered next⟩

/-- What is done with consecutive words is done with the words of the memory. -/
theorem Serves.run_slots
    (serves : provider.Serves address block memory state)
    (canShow : block.canShow)
    (start : Int)
    (count : Nat)
    (result : List Bytes → Except Fault α) :
    (provider.run address block
      (Reading.slots start count fun words => .done (result words)) state).1 =
      result (memory.words start count) := by
  induction count generalizing start result state with
  | zero =>
      rfl
  | succ count inductionHypothesis =>
      obtain ⟨later, servesLater, goesOn⟩ :=
        serves.run_word canShow (inSlotSpace_emod start)
          (fun content =>
            Reading.slots (start + 1) count
              fun contents => .done (result (content :: contents)))
      rw [Reading.slots, goesOn, inductionHypothesis servesLater,
        Memory.words_succ]

end Provider

namespace Memory

/--
The provider that answers with the words of a memory, for all contracts and
blocks.
-/
def provider (memory : Memory) : Provider Unit :=
  fun request state => (.value (.bytes (memory.word request.slot)), state)

/-- The memory in which every slot holds its own number. -/
def slotNumbers : Memory where
  word slot := Word.ofNat slot.toNat
  length_word _ := Bytes.length_ofNat _ _

/-- The provider of a memory serves it. -/
theorem serves_provider
    (memory : Memory)
    (address : String)
    (block : Value) :
    memory.provider.Serves address block memory () := by
  refine ⟨fun _ => True, trivial, fun _ _ slot _ => ⟨?_, trivial⟩⟩
  have wholeWord := memory.length_word slot
  simp [provider, Answer.word, Word.ofRaw, Word.ofBytes, wholeWord,
    List.leftpad]

end Memory

end EvmStorage
