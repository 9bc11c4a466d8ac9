import EvmStorage.Proofs.Progress
import EvmStorage.Proofs.PromisedFaults
import EvmStorage.Proofs.ReadPlan

namespace EvmStorage

/-!
# Reading that keeps to the promised faults

A cursor whose numbers can be shown, and whose slot exists where it has to be
hashed, is resolved to a value or ends with a fault of one of the families that
callers are told of: whatever is stored, and however the provider fails.
-/

open Outcome (Keeps)

/-- Whether a reading keeps the promise, whatever whole words it is given. -/
inductive Reading.KeepsPromise : Reading α → Prop where
  | done
      {result : Except Fault α}
      (keeps : Keeps result fun _ => True) :
      KeepsPromise (.done result)
  | word
      {slot : Int}
      {next : Bytes → Reading α}
      (goesOn : ∀ word, word.length = slotSize → KeepsPromise (next word)) :
      KeepsPromise (.word slot next)

namespace Reading

/-- A reading goes on with what a computation returns. -/
theorem KeepsPromise.done_bind
    {computation : Except Fault α}
    {between : α → Prop}
    {next : α → Reading β}
    (first : Keeps computation between)
    (goesOn : ∀ result, between result → (next result).KeepsPromise) :
    (Reading.done computation >>= next).KeepsPromise := by
  cases first with
  | ok isTrue =>
      exact goesOn _ isTrue
  | error isReported =>
      exact .done (.error isReported)

/--
Consecutive slots are read if what is done with their words keeps the promise.
-/
theorem keepsPromise_slots
    {result : List Bytes → Except Fault α}
    (start : Int)
    (count : Nat)
    (keeps :
      ∀ words : List Bytes,
        words.length = count →
        (∀ word ∈ words, word.length = slotSize) →
        Keeps (result words) fun _ => True) :
    (Reading.slots start count fun words =>
      .done (result words)).KeepsPromise := by
  induction count generalizing start result with
  | zero =>
      exact .done (keeps [] rfl fun _ isIn => nomatch isIn)
  | succ count inductionHypothesis =>
      refine .word fun word wholeWord => ?_
      apply inductionHypothesis
      intro words isLength wholeWords
      exact keeps (word :: words) (by rw [List.length_cons, isLength])
        (List.forall_mem_cons.mpr ⟨wholeWord, wholeWords⟩)

end Reading

/--
Whether a provider ends every call, without a cancellation and with no number
too long.
-/
structure Provider.Responds (provider : Provider σ) : Prop where
  notCancelled : ∀ request state, (provider request state).1 ≠ .cancelled
  notSilent : ∀ request state, (provider request state).1 ≠ .silent
  canWrite :
    ∀ request state n,
      (provider request state).1 = .value (.int n) → Value.canWriteInt n

/--
A call that was not cancelled ends a reading with a fault that is reported.
-/
theorem Answer.Ends.isReported
    {request : Request}
    {answer : Answer}
    {fault : Fault}
    (ends : Ends request answer fault)
    (notCancelled : answer ≠ .cancelled) :
    fault.isReported := by
  have ofFamily (isFailedRead : fault.family? = some "StorageIOError") :
      fault.isReported := by
    rw [Fault.isReported, isFailedRead]
    rfl
  cases ends with
  | @relayed failure isReported =>
      simp [Fault.isReported_eq, Fault.hasMessage, Fault.shownValues,
        Fault.causeFamily?, isReported]
  | retriesExceeded last =>
      simp [ReadFault.shownValues]
  | cancelled =>
      exact absurd rfl notCancelled
  | failed _ isFailedRead _ =>
      exact ofFamily isFailedRead
  | refused _ isFailedRead =>
      exact ofFamily isFailedRead

/-- The word that an answer gives is a whole one. -/
theorem Answer.length_of_word
    {request : Request}
    {answer : Answer}
    {word : Bytes}
    (isWord : answer.word request = .ok word) :
    word.length = slotSize := by
  cases answer with
  | value raw =>
      exact Word.length_of_ofRaw isWord
  | _ =>
      cases isWord

/--
A reading that keeps the promise does so when a provider answers its requests.
-/
theorem Provider.Responds.keeps_run
    {provider : Provider σ}
    {address : String}
    {block : Value}
    {reading : Reading α}
    (responds : provider.Responds)
    (canShow : block.canShow)
    (keepsPromise : reading.KeepsPromise)
    (state : σ) :
    Keeps (provider.run address block reading state).1 fun _ => True := by
  induction keepsPromise generalizing state with
  | done keeps =>
      exact keeps
  | @word slot next _ inductionHypothesis =>
      let request : Request := { address, slot, block }
      cases isWord : (provider request state).1.word request with
      | ok word =>
          rw [run_word_of_ok canShow isWord]
          exact inductionHypothesis word (Answer.length_of_word isWord) _
      | error fault =>
          rw [run_word_of_error canShow isWord]
          have ends :=
            Answer.ends_of_word canShow (responds.canWrite request state)
              (responds.notSilent request state) isWord
          exact .error (ends.isReported (responds.notCancelled request state))

variable {hash : Digest} {layout : Layout} {type : TypeEntry}

/--
What the word of a byte string says is told, or it is reported that it says too
much.
-/
theorem Decode.keeps_bytesHeader
    {word : Bytes}
    (wholeWord : word.length = slotSize) :
    Keeps (bytesHeader word) fun header => header.length < 2 ^ 256 := by
  rcases exists_bytesHeader wholeWord with
    ⟨header, isHeader, bounded⟩ | ⟨front, last, rfl, isEven, tooLong⟩
  · rw [isHeader]
    exact .ok bounded
  · rw [bytesHeader_of_even isEven, if_neg (not_lt.mpr tooLong)]
    exact .error (by simp [SchemaFault.shownValues])

/-- The text of a byte string is told by any bytes. -/
theorem Decode.keeps_bytesText
    (textual : layout.Textual)
    (inTable : type ∈ layout.types)
    (data : Bytes) :
    Keeps (bytesText data type) fun _ => True := by
  obtain ⟨label, isLabel⟩ :=
    Value.exists_of_isText (textual.labels type inTable)
  unfold bytesText
  split
  · exact .error (by simp [SchemaFault.shownValues, isLabel])
  · simp only [TypeEntry.labelText, isLabel, Outcome.ok_bind]
    split <;> exact .ok trivial

namespace Cursor

/--
Whether the parts of a cursor that messages show can be shown, and its slot
exists if it has to be hashed to find what is stored.
-/
structure Showable
    (layout : Layout)
    (cursor : Cursor) :
    Prop where
  onType : layout.lookup cursor.position.type = .ok cursor.type
  pathIsText : cursor.path.isText
  slot : Value.canWriteInt cursor.position.slot
  offset : Value.canWriteInt cursor.position.offset
  block : cursor.position.block.canShow
  hashable : cursor.type.isDynamicArray ∨ cursor.type.isBytes →
    inSlotSpace cursor.position.slot

variable {cursor : Cursor}

/-- A scalar is read from its slot. -/
theorem keepsPromise_readScalar
    (textual : layout.Textual)
    (regular : layout.Regular)
    (showable : cursor.Showable layout)
    (isScalar : cursor.type.isScalar) :
    (cursor.readScalar hash).KeepsPromise := by
  have inTable := Layout.mem_types_of_lookup showable.onType
  refine .word fun word wholeWord => .done ?_
  have window :=
    Decode.keeps_window wholeWord showable.offset
      (regular.sizes cursor.type inTable)
  exact window.bind fun data ⟨wholeData, inSlot⟩ =>
    Decode.keeps_scalar textual regular inTable
      (TypeEntry.isSlotScalar_iff.mpr ⟨isScalar, inSlot⟩) wholeData

/-- A struct or an array with a length in its label is read from its slots. -/
theorem keepsPromise_readInPlace
    (textual : layout.Textual)
    (regular : layout.Regular)
    (acyclic : layout.Acyclic)
    (showable : cursor.Showable layout)
    (hasParts : cursor.type.isStruct ∨ cursor.type.isFixedArray) :
    (cursor.readInPlace hash layout).KeepsPromise := by
  have inTable := Layout.mem_types_of_lookup showable.onType
  obtain ⟨count, isCount, _⟩ :=
    exists_slotSpan_of_natAbs_lt (regular.sizes cursor.type inTable)
  have ofTable (part : TypeEntry) (partInTable : part ∈ layout.types) :
      Decode.KeepsPromise hash layout part :=
    Decode.keepsPromise textual regular acyclic partInTable
  unfold readInPlace
  rw [isCount]
  apply Reading.keepsPromise_slots
  intro words _ wholeWords
  split
  · exact (Decode.keeps_struct textual regular acyclic inTable
      (fun part isPart => ofTable part isPart.mem_types) wholeWords).map
        fun _ _ => trivial
  · next notStruct =>
      have canTell :=
        @Decode.keeps_canTell layout cursor.type words textual regular inTable
          (hasParts.resolve_left notStruct)
      have keepsSequence :=
        @Decode.keeps_sequence hash layout cursor.type words none textual
          regular acyclic inTable
          (fun element found _ =>
            ofTable element (Layout.mem_types_of_lookup found)) canTell
          wholeWords
      exact keepsSequence.map fun _ _ => trivial

/--
The elements of an array are read from the slots that its length asks for.
-/
theorem keepsPromise_readDynamicArray
    (textual : layout.Textual)
    (regular : layout.Regular)
    (acyclic : layout.Acyclic)
    (showable : cursor.Showable layout)
    (isDynamicArray : cursor.type.isDynamicArray) :
    (cursor.readDynamicArray hash layout).KeepsPromise := by
  have inTable := Layout.mem_types_of_lookup showable.onType
  simp only [readDynamicArray, Reading.slot_bind]
  refine .word fun word _ => ?_
  refine .done_bind (textual.keeps_elementOf inTable) fun element found => ?_
  have elementInTable := Layout.mem_types_of_lookup found
  refine .done_bind (keeps_arraySpan (regular.sizes element elementInTable))
    fun count isCount => ?_
  rw [dataSlot_eq (showable.hashable (.inl isDynamicArray)),
    Reading.done_ok_bind]
  apply Reading.keepsPromise_slots
  intro words isLength wholeWords
  have keepsSequence :=
    @Decode.keeps_sequence hash layout cursor.type words
      (some (Bytes.toNat word)) textual regular acyclic inTable
      (fun part isPart _ =>
        Decode.keepsPromise textual regular acyclic
          (Layout.mem_types_of_lookup isPart))
      (.ok fun other isOther span isSpan => by
        cases found.symm.trans isOther
        cases isCount.symm.trans isSpan
        exact .inl (by omega))
      wholeWords
  exact keepsSequence.map fun _ _ => trivial

/--
A byte string is read from its slot, and from the slots behind its hash if it
is long.
-/
theorem keepsPromise_readBytes
    (textual : layout.Textual)
    (showable : cursor.Showable layout)
    (isBytes : cursor.type.isBytes) :
    (cursor.readBytes hash).KeepsPromise := by
  have inTable := Layout.mem_types_of_lookup showable.onType
  have textOf (data : Bytes) :
      Keeps ((Decode.bytesText data cursor.type).map Value.text) fun _ =>
        True :=
    (Decode.keeps_bytesText textual inTable data).map fun _ _ => trivial
  simp only [readBytes, Reading.slot_bind]
  refine .word fun word wholeWord => ?_
  refine .done_bind (Decode.keeps_bytesHeader wholeWord) fun header bounded =>
    ?_
  split
  · obtain ⟨count, isCount⟩ := exists_slotSpan bounded
    rw [dataSlot_eq (showable.hashable (.inr isBytes)), Reading.done_ok_bind,
      isCount, Reading.done_ok_bind]
    exact Reading.keepsPromise_slots _ _ fun words _ _ => textOf _
  · exact .done (textOf _)

/--
A cursor whose parts can be shown is resolved, or it is reported why it is not.
-/
theorem keepsPromise_resolve
    (textual : layout.Textual)
    (regular : layout.Regular)
    (acyclic : layout.Acyclic)
    (showable : cursor.Showable layout) :
    (cursor.resolve hash layout).KeepsPromise := by
  have inTable := Layout.mem_types_of_lookup showable.onType
  obtain ⟨path, isPath⟩ := Value.exists_of_isText showable.pathIsText
  unfold resolve
  dsimp only
  split
  · exact .done (.error (by
      simp [SchemaFault.shownValues, isPath, textual.canShow_label inTable]))
  next notMapping =>
  split
  · next isScalar =>
      exact keepsPromise_readScalar textual regular showable isScalar
  next notScalar =>
  have whole :
      (if cursor.type.isStruct || cursor.type.isFixedArray then
        cursor.readInPlace hash layout
      else if cursor.type.isDynamicArray then
        cursor.readDynamicArray hash layout
      else
        cursor.readBytes hash).KeepsPromise := by
    split
    · next hasParts =>
        exact keepsPromise_readInPlace textual regular acyclic showable
          (by simpa using hasParts)
    next noParts =>
    split
    · next isDynamicArray =>
        exact keepsPromise_readDynamicArray textual regular acyclic showable
          isDynamicArray
    next notDynamicArray =>
    have notInPlace : cursor.type.encoding ≠ .inplace := by
      intro inPlace
      have hasParts := TypeEntry.isStruct_or_isFixedArray inPlace notScalar
      exact noParts (by simpa using hasParts)
    have isBytes : cursor.type.isBytes := by
      simp only [TypeEntry.isMapping, TypeEntry.isDynamicArray,
        TypeEntry.isBytes, decide_eq_true_eq] at notMapping notDynamicArray ⊢
      cases encoding : cursor.type.encoding <;> simp_all
    exact keepsPromise_readBytes textual showable isBytes
  split
  · exact .done_bind
      (Decode.keeps_elementInPlace textual acyclic inTable) fun _ _ => whole
  · exact whole

end Cursor

end EvmStorage
