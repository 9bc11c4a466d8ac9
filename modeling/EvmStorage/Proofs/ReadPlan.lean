import EvmStorage.Proofs.ArrayElements
import EvmStorage.Proofs.Requests
import EvmStorage.Proofs.StoredBytes
import EvmStorage.Proofs.WellPlaced

namespace EvmStorage

/-!
# Plans of reading

Which slots are asked for to resolve a cursor, and in which order, is told by
its type and by the word in its own slot.  Whatever a provider does, the slots
of this plan are asked for one after the other until a call brings no word;
how this call ended is how the reading ends.
-/

namespace Reading

/--
Whether a reading that is given words asks for slots in their order, and for no
more.
-/
inductive Asks : Reading α → List Int → List Bytes → Prop where
  | done
      (result : Except Fault α) :
      Asks (.done result) [] []
  | word
      {slot : Int}
      {word : Bytes}
      {next : Bytes → Reading α}
      {slots : List Int}
      {words : List Bytes}
      (goesOn : Asks (next word) slots words) :
      Asks (.word slot next) (slot :: slots) (word :: words)

/--
What a reading comes to with words that are given to it one after the other.
-/
def resultOf : Reading α → List Bytes → Except Fault α
  | .done result, _ => result
  | .word _ next, content :: contents => (next content).resultOf contents
  | .word _ _, [] => .error .unanswered

/--
Whether a reading asks for the slots of a plan if the first word is a given
one.
-/
def Follows
    (reading : Reading α)
    (own : Bytes)
    (plan : List Int) :
    Prop :=
  ∀ words : List Bytes,
    words.length = plan.length →
    (∀ word ∈ words.head?, word = own) →
    reading.Asks plan words

/-- A reading with a result asks for nothing. -/
theorem follows_done
    (own : Bytes)
    (result : Except Fault α) :
    (Reading.done result).Follows own [] := by
  intro words isLength _
  cases List.length_eq_zero_iff.mp isLength
  exact .done result

/-- Consecutive slots are asked for in their order. -/
theorem asks_slots
    (start : Int)
    (result : List Bytes → Except Fault α)
    (words : List Bytes) :
    (Reading.slots start words.length fun words => .done (result words)).Asks
      (Provider.consecutive start words.length) words := by
  induction words generalizing start result with
  | nil =>
      exact .done _
  | cons word words inductionHypothesis =>
      rw [List.length_cons, Provider.consecutive_succ]
      exact .word (inductionHypothesis (start + 1) fun others =>
        result (word :: others))

/-- A reading of consecutive slots follows the plan of these slots. -/
theorem follows_slots
    (own : Bytes)
    (start : Int)
    (count : Nat)
    (result : List Bytes → Except Fault α) :
    (Reading.slots start count fun words => .done (result words)).Follows own
      (Provider.consecutive start count) := by
  intro words isLength _
  have isCount : words.length = count := by
    rw [isLength, Provider.consecutive, List.length_map, List.length_range]
  subst isCount
  exact asks_slots start result words

/--
A reading that asks for its own word first follows a plan if the rest does,
given this word.
-/
theorem follows_word
    {own : Bytes}
    {slot : Int}
    {next : Bytes → Reading α}
    {plan : List Int}
    (goesOn :
      ∀ words : List Bytes,
        words.length = plan.length → (next own).Asks plan words) :
    (Reading.word slot next).Follows own (slot :: plan) := by
  intro words isLength isOwn
  cases words with
  | nil =>
      cases isLength
  | cons word words =>
      cases isOwn word rfl
      exact .word (goesOn words (Nat.succ.inj isLength))

end Reading

/--
Whether a call brings no word, but an error, a cancellation or a value that is
refused.
-/
def Answer.Fails
    (answer : Answer)
    (request : Request) :
    Prop :=
  answer ≠ .silent ∧ ∀ word, answer.word request ≠ .ok word

/-- Whether an error of a call is one of those that callers are promised. -/
def CallError.isReported : CallError → Bool
  | .raised failure => failure.kind.isReported
  | .retriesExceeded _ => true
  | .timedOut | .addressRejected | .timeLimitTooLarge | .countTooLarge => false

/--
How a call that fails ends a reading: errors that callers are promised and
cancellations are passed on, all other errors and values that are refused
become failed reads.
-/
inductive Answer.Ends (request : Request) : Answer → Fault → Prop where
  | relayed
      {failure : Failure}
      (isReported : failure.kind.isReported) :
      Ends request (.failed (.raised failure)) (.relayed failure)
  | retriesExceeded
      (last : Option CallError) :
      Ends request (.failed (.retriesExceeded last))
        (.read (.retriesExceeded last))
  | cancelled :
      Ends request .cancelled .cancelled
  | failed
      {error : CallError}
      {fault : Fault}
      (notReported : error.isReported = false)
      (isFailedRead : fault.family? = some "StorageIOError")
      (isChained : fault.cause? = some error) :
      Ends request (.failed error) fault
  | refused
      {raw : Value}
      {fault : Fault}
      (isRefused : Word.ofRaw raw = .error fault)
      (isFailedRead : fault.family? = some "StorageIOError") :
      Ends request (.value raw) fault

/--
A value that is refused is a failed read, unless it is an integer that cannot
be written.
-/
theorem Word.family?_of_ofRaw
    {raw : Value}
    {fault : Fault}
    (canWrite : ∀ n, raw = .int n → Value.canWriteInt n)
    (isRefused : ofRaw raw = .error fault) :
    fault.family? = some "StorageIOError" := by
  have ofBytes {content : Bytes} (isRefused : ofBytes content = .error fault) :
      fault.family? = some "StorageIOError" := by
    unfold Word.ofBytes at isRefused
    split at isRefused
    · cases isRefused
      rfl
    · cases isRefused
  cases raw with
  | int n =>
      simp only [ofRaw] at isRefused
      split at isRefused
      · cases isRefused
      · cases isRefused
        simp [Fault.family?, Fault.hasMessage, Fault.shownValues,
          ReadFault.shownValues, Value.canShow, canWrite n rfl,
          Fault.causeFamily?]
  | text s =>
      simp only [ofRaw] at isRefused
      split at isRefused
      · exact ofBytes isRefused
      · cases isRefused
        rfl
  | bytes content =>
      exact ofBytes isRefused
  | _ =>
      cases isRefused
      rfl

/-- Every call that fails ends a reading in one of the ways it may. -/
theorem Answer.ends_of_word
    {answer : Answer}
    {request : Request}
    {fault : Fault}
    (canShow : request.block.canShow)
    (canWrite : ∀ n, answer = .value (.int n) → Value.canWriteInt n)
    (notSilent : answer ≠ .silent)
    (isFault : answer.word request = .error fault) :
    Ends request answer fault := by
  have isFailedRead (error : CallError) :
      (Fault.read (.failed request.slot request.address
        request.block error)).family? =
        some "StorageIOError" := by
    simp [Fault.family?, Fault.hasMessage, Fault.shownValues,
      ReadFault.shownValues, canShow, Fault.causeFamily?]
  cases answer with
  | value raw =>
      exact .refused isFault
        (Word.family?_of_ofRaw
          (fun n isInt => canWrite n (congrArg _ isInt)) isFault)
  | failed error =>
      cases isFault
      cases error with
      | raised failure =>
          by_cases isReported : failure.kind.isReported
          · simp only [CallError.fault, isReported, ↓reduceIte]
            exact .relayed isReported
          · simp only [CallError.fault, isReported, Bool.false_eq_true,
              ↓reduceIte]
            exact .failed (by simpa [CallError.isReported] using isReported)
              (isFailedRead _) rfl
      | timedOut | addressRejected | timeLimitTooLarge | countTooLarge =>
          exact .failed rfl (isFailedRead _) rfl
      | retriesExceeded last =>
          exact .retriesExceeded last
  | cancelled =>
      cases isFault
      exact .cancelled
  | silent =>
      exact absurd rfl notSilent

namespace Provider

variable {provider : Provider σ} {address : String} {block : Value}

/--
Whether calls for slots, one after the other, bring words and lead from a state
to a state.
-/
inductive Brings
    (provider : Provider σ)
    (address : String)
    (block : Value) :
    σ →
    List Int →
    List Bytes →
    σ →
    Prop where
  | nil
      (state : σ) :
      Brings provider address block state [] [] state
  | cons
      {state later : σ}
      {slot : Int}
      {slots : List Int}
      {word : Bytes}
      {words : List Bytes}
      (answered :
        (provider { address, slot, block } state).1.word
          { address, slot, block } = .ok word)
      (goesOn :
        Brings provider address block
          (provider { address, slot, block } state).2 slots words later) :
      Brings provider address block state (slot :: slots) (word :: words) later

/--
If all calls bring words, all slots are asked for, and the words tell the
result.
-/
theorem Brings.run_recording
    {state later : σ}
    {slots : List Int}
    {words : List Bytes}
    {reading : Reading α}
    (canShow : block.canShow)
    (brings : provider.Brings address block state slots words later)
    (asks : reading.Asks slots words)
    (requests : List Request) :
    provider.recording.run address block reading (state, requests) =
      (reading.resultOf words, later,
        requests ++ requestsFor address block slots) := by
  induction brings generalizing reading requests with
  | nil state =>
      cases asks with
      | done result =>
          simp [run, Reading.resultOf, requestsFor]
  | cons answered _ inductionHypothesis =>
      cases asks with
      | word goesOn =>
          rw [run_recording_word canShow answered, inductionHypothesis goesOn]
          simp [Reading.resultOf, requestsFor]

/--
If a call brings no word, the slots up to it are asked for, and its fault is
the result.
-/
theorem Brings.run_recording_of_fault
    {state between : σ}
    {asked rest : List Int}
    {failing : Int}
    {words others : List Bytes}
    {reading : Reading α}
    {fault : Fault}
    (canShow : block.canShow)
    (brings : provider.Brings address block state asked words between)
    (asks : reading.Asks (asked ++ failing :: rest) (words ++ others))
    (isFault :
      (provider { address, slot := failing, block } between).1.word
          { address, slot := failing, block } =
        .error fault)
    (requests : List Request) :
    provider.recording.run address block reading (state, requests) =
      (.error fault, (provider { address, slot := failing, block } between).2,
        requests ++ requestsFor address block (asked ++ [failing])) := by
  induction brings generalizing reading requests with
  | nil state =>
      cases others with
      | nil =>
          cases asks
      | cons word others =>
          cases asks with
          | word goesOn =>
              exact run_recording_word_of_error canShow isFault _
  | cons answered _ inductionHypothesis =>
      cases asks with
      | word goesOn =>
          rw [run_recording_word canShow answered,
            inductionHypothesis goesOn isFault]
          simp [requestsFor]

/-- There are as many words as slots. -/
theorem Brings.length_eq
    {state later : σ}
    {slots : List Int}
    {words : List Bytes}
    (brings : provider.Brings address block state slots words later) :
    words.length = slots.length := by
  induction brings with
  | nil state =>
      rfl
  | cons _ _ inductionHypothesis =>
      rw [List.length_cons, List.length_cons, inductionHypothesis]

end Provider

/-- The kinds of types, by how their values are stored. -/
inductive TypeEntry.Kind where
  | mapping
  | scalar
  | struct
  | fixedArray
  | dynamicArray
  | bytes
  deriving DecidableEq, Repr

/-- Whether a type is of a kind. -/
def TypeEntry.isOf (type : TypeEntry) : Kind → Bool
  | .mapping => type.isMapping
  | .scalar => type.isScalar
  | .struct => type.isStruct
  | .fixedArray => type.isFixedArray
  | .dynamicArray => type.isDynamicArray
  | .bytes => type.isBytes

/-- The slot at which what belongs to a slot that exists starts. -/
def dataStart
    (hash : Digest)
    (slot : Int) :
    Int :=
  hash (Word.ofNat slot.toNat)

/--
The slots that have to be asked for to resolve a cursor, if the word in its own
slot is a given one.

Of a mapping and of an array whose elements lie elsewhere nothing is read.
-/
inductive Cursor.HasPlan
    (hash : Digest)
    (layout : Layout)
    (cursor : Cursor)
    (own : Bytes) :
    List Int →
    Prop where
  | mapping
      (isMapping : cursor.type.isMapping) :
      HasPlan hash layout cursor own []
  | elementsUndefined
      (isArray : cursor.type.isArray)
      (undefined : ¬ layout.Defines (cursor.type.base.getD .null)) :
      HasPlan hash layout cursor own []
  | elementsElsewhere
      {element : TypeEntry}
      (isArray : cursor.type.isArray)
      (isElement : layout.elementOf cursor.type = .ok element)
      (isElsewhere : Decode.storedElsewhere layout element = .ok true) :
      HasPlan hash layout cursor own []
  | scalar
      (isScalar : cursor.type.isScalar) :
      HasPlan hash layout cursor own [cursor.position.slot]
  | struct
      (isStruct : cursor.type.isStruct) :
      HasPlan hash layout cursor own
        (Provider.consecutive cursor.position.slot
          (exactSpan cursor.type.size).toNat)
  | fixedArray
      {element : TypeEntry}
      (isFixedArray : cursor.type.isFixedArray)
      (isElement : layout.elementOf cursor.type = .ok element)
      (isHere : Decode.storedElsewhere layout element = .ok false) :
      HasPlan hash layout cursor own
        (Provider.consecutive cursor.position.slot
          (exactSpan cursor.type.size).toNat)
  | dynamicArray
      {element : TypeEntry}
      (isDynamicArray : cursor.type.isDynamicArray)
      (isElement : layout.elementOf cursor.type = .ok element)
      (isHere : Decode.storedElsewhere layout element = .ok false) :
      HasPlan hash layout cursor own
        (cursor.position.slot ::
          Provider.consecutive (dataStart hash cursor.position.slot)
            (exactArraySpan (Bytes.toNat own) element.size).toNat)
  | bytesRefused
      {fault : Fault}
      (isBytes : cursor.type.isBytes)
      (isRefused : Decode.bytesHeader own = .error fault) :
      HasPlan hash layout cursor own [cursor.position.slot]
  | bytesShort
      {header : Decode.BytesHeader}
      (isBytes : cursor.type.isBytes)
      (isHeader : Decode.bytesHeader own = .ok header)
      (isShort : header.isLong = false) :
      HasPlan hash layout cursor own [cursor.position.slot]
  | bytesLong
      {header : Decode.BytesHeader}
      (isBytes : cursor.type.isBytes)
      (isHeader : Decode.bytesHeader own = .ok header)
      (isLong : header.isLong = true) :
      HasPlan hash layout cursor own
        (cursor.position.slot ::
          Provider.consecutive (dataStart hash cursor.position.slot)
            (exactSpan header.length).toNat)

namespace Cursor

variable {hash : Digest} {layout : Layout} {cursor : Cursor} {own : Bytes}

/--
A cursor on an array follows the plan to read nothing, if its elements cannot
be decoded.
-/
theorem follows_of_elementInPlace_error
    {fault : Fault}
    (isArray : cursor.type.isArray)
    (noElement : Decode.elementInPlace layout cursor.type = .error fault) :
    (cursor.resolve hash layout).Follows own [] := by
  rw [resolve_of_elementInPlace_error isArray noElement]
  exact Reading.follows_done own _

/--
A cursor on a value in its own slots follows the plan to read these slots.
-/
theorem readInPlace_follows
    (sizes : layout.ExactSizes)
    (inTable : cursor.type ∈ layout.types) :
    (cursor.readInPlace hash layout).Follows own
      (Provider.consecutive cursor.position.slot
        (exactSpan cursor.type.size).toNat) := by
  obtain ⟨positive, bounded⟩ := sizes cursor.type inTable
  unfold readInPlace
  rw [slotSpan_eq positive.le bounded]
  exact Reading.follows_slots own _ _ _

/--
A cursor on an array of any length follows the plan to read its length and its
elements.
-/
theorem readDynamicArray_follows
    {element : TypeEntry}
    (sizes : layout.ExactSizes)
    (inside : inSlotSpace cursor.position.slot)
    (isElement : layout.elementOf cursor.type = .ok element) :
    (cursor.readDynamicArray hash layout).Follows own
      (cursor.position.slot ::
        Provider.consecutive (dataStart hash cursor.position.slot)
          (exactArraySpan (Bytes.toNat own) element.size).toNat) := by
  obtain ⟨positive, bounded⟩ :=
    sizes element (Layout.mem_types_of_lookup isElement)
  rw [readDynamicArray, Reading.slot_bind]
  refine Reading.follows_word fun words isLength => ?_
  simp only [isElement, arraySpan_eq (fun _ => positive) bounded,
    dataSlot_eq inside, Reading.done_ok_bind]
  have isCount :
      words.length = (exactArraySpan (Bytes.toNat own) element.size).toNat := by
    rw [isLength, Provider.consecutive, List.length_map, List.length_range]
  rw [← isCount]
  exact Reading.asks_slots _ _ words

/--
A cursor on a byte string follows the plan to read its word, and its bytes if
there are many.
-/
theorem exists_plan_of_isBytes
    (isBytes : cursor.type.isBytes)
    (inside : inSlotSpace cursor.position.slot)
    (bounded :
      ∀ header, Decode.bytesHeader own = .ok header → header.length ≤ 2 ^ 53) :
    ∃ plan,
      cursor.HasPlan hash layout own plan ∧
        (cursor.readBytes hash).Follows own plan := by
  unfold readBytes
  simp only [Reading.slot_bind]
  cases isHeader : Decode.bytesHeader own with
  | error fault =>
      refine ⟨_, .bytesRefused isBytes isHeader,
        Reading.follows_word fun words isLength => ?_⟩
      cases List.length_eq_zero_iff.mp isLength
      simp only [isHeader, Reading.done_error_bind]
      exact .done _
  | ok header =>
      have nonneg : (0 : Int) ≤ header.length :=
        Int.natCast_nonneg _
      have exact : (header.length : Int) ≤ greatestExactSize := by
        simp only [greatestExactSize]
        exact_mod_cast bounded header isHeader
      cases isLong : header.isLong with
      | false =>
          refine ⟨_, .bytesShort isBytes isHeader isLong,
            Reading.follows_word ?_⟩
          intro words isLength
          cases List.length_eq_zero_iff.mp isLength
          simp only [isHeader, Reading.done_ok_bind, isLong, Bool.false_eq_true,
            ↓reduceIte]
          exact .done _
      | true =>
          refine ⟨_, .bytesLong isBytes isHeader isLong,
            Reading.follows_word ?_⟩
          intro words isLength
          have isCount : words.length = (exactSpan header.length).toNat := by
            rw [isLength, Provider.consecutive, List.length_map,
              List.length_range]
          simp only [isHeader, Reading.done_ok_bind, isLong, ↓reduceIte,
            dataSlot_eq inside, slotSpan_eq nonneg exact, ← isCount]
          exact Reading.asks_slots _ _ words

/-- The first slot of a plan is the slot of the cursor. -/
theorem HasPlan.eq_of_mem_head?
    {plan : List Int}
    {slot : Int}
    (hasPlan : cursor.HasPlan hash layout own plan)
    (inside : inSlotSpace cursor.position.slot)
    (isFirst : slot ∈ plan.head?) :
    slot = cursor.position.slot := by
  have ofConsecutive (count : Nat)
      (isFirst :
        slot ∈ (Provider.consecutive cursor.position.slot count).head?) :
      slot = cursor.position.slot := by
    cases count with
    | zero =>
        cases isFirst
    | succ count =>
        rw [Provider.consecutive_succ, emod_slotModulus_of_inSlotSpace inside]
          at isFirst
        cases isFirst
        rfl
  cases hasPlan with
  | mapping | elementsUndefined | elementsElsewhere =>
      cases isFirst
  | struct | fixedArray =>
      exact ofConsecutive _ isFirst
  | scalar | dynamicArray | bytesRefused | bytesShort | bytesLong =>
      cases isFirst
      rfl

/-- Every cursor on a type of one kind follows a plan. -/
theorem exists_plan
    (oneKind : ∃! kind, cursor.type.isOf kind)
    (acyclic : layout.Acyclic)
    (defined :
      ∀ type ∈ layout.types,
        type.isFixedArray → layout.Defines (type.base.getD .null))
    (sizes : layout.ExactSizes)
    (inTable : cursor.type ∈ layout.types)
    (inside : inSlotSpace cursor.position.slot)
    (bounded :
      cursor.type.isBytes →
      ∀ header, Decode.bytesHeader own = .ok header → header.length ≤ 2 ^ 53) :
    ∃ plan,
      cursor.HasPlan hash layout own plan ∧
        (cursor.resolve hash layout).Follows own plan := by
  obtain ⟨kind, isKind, isOnly⟩ := oneKind
  have notOther (other : TypeEntry.Kind) (isOther : other ≠ kind) :
      cursor.type.isOf other = false :=
    Bool.eq_false_iff.mpr fun isOf => isOther (isOnly other isOf)
  have elements (isArray : cursor.type.isArray) :
      (∃ plan, cursor.HasPlan hash layout own plan ∧
          (cursor.resolve hash layout).Follows own plan) ∨
        ∃ element, layout.elementOf cursor.type = .ok element ∧
          Decode.storedElsewhere layout element = .ok false := by
    cases found : layout.elementOf cursor.type with
    | error fault =>
        have undefined : ¬ layout.Defines (cursor.type.base.getD .null) := by
          rintro ⟨element, isElement⟩
          cases found.symm.trans isElement
        have noElement :
            Decode.elementInPlace layout cursor.type = .error fault := by
          simp [Decode.elementInPlace, found]
        exact .inl ⟨[], .elementsUndefined isArray undefined,
          follows_of_elementInPlace_error isArray noElement⟩
    | ok element =>
        obtain ⟨elsewhere, isElsewhere⟩ :=
          Decode.exists_storedElsewhere_of_acyclic acyclic defined
            (Layout.mem_types_of_lookup found)
        cases elsewhere with
        | true =>
            refine .inl ⟨[], .elementsElsewhere isArray found isElsewhere, ?_⟩
            rw [resolve_of_elementsElsewhere isArray found isElsewhere]
            exact Reading.follows_done own _
        | false =>
            exact .inr ⟨element, rfl, isElsewhere⟩
  cases kind with
  | mapping =>
      refine ⟨[], .mapping isKind, ?_⟩
      rw [resolve_of_isMapping isKind]
      exact Reading.follows_done own _
  | scalar =>
      refine ⟨_, .scalar isKind, ?_⟩
      rw [resolve_of_isScalar isKind, readScalar, Reading.slot_bind]
      refine Reading.follows_word fun words isLength => ?_
      cases List.length_eq_zero_iff.mp isLength
      exact .done _
  | struct =>
      have notMapping := notOther .mapping (by decide)
      have notDynamic := notOther .dynamicArray (by decide)
      have notBytes := notOther .bytes (by decide)
      have notFixed := notOther .fixedArray (by decide)
      have isInPlace : cursor.type.encoding = .inplace := by
        cases encoding : cursor.type.encoding <;>
          simp_all [TypeEntry.isOf, TypeEntry.isMapping,
            TypeEntry.isDynamicArray, TypeEntry.isBytes]
      refine ⟨_, .struct isKind, ?_⟩
      rw [resolve_of_isStruct_or_isFixedArray isInPlace (.inl isKind)
        (fun isFixed =>
          absurd isFixed (by simpa [TypeEntry.isOf] using notFixed))]
      exact readInPlace_follows sizes inTable
  | fixedArray =>
      have isArray : cursor.type.isArray := by
        simp only [TypeEntry.isArray, Bool.or_eq_true]
        exact .inl isKind
      rcases elements isArray with hasPlan | ⟨element, found, isHere⟩
      · exact hasPlan
      · refine ⟨_, .fixedArray isKind found isHere, ?_⟩
        rw [resolve_of_isStruct_or_isFixedArray
          (TypeEntry.isFixedArray_iff.mp isKind).1 (.inr isKind) (fun _ =>
            ⟨element, Decode.elementInPlace_eq found isHere⟩)]
        exact readInPlace_follows sizes inTable
  | dynamicArray =>
      have isArray : cursor.type.isArray := by
        simp only [TypeEntry.isArray, Bool.or_eq_true]
        exact .inr isKind
      rcases elements isArray with hasPlan | ⟨element, found, isHere⟩
      · exact hasPlan
      · refine ⟨_, .dynamicArray isKind found isHere, ?_⟩
        rw [resolve_of_isDynamicArray isKind (notOther .struct (by decide))
          (Decode.elementInPlace_eq found isHere)]
        exact readDynamicArray_follows sizes inside found
  | bytes =>
      have noMembers : cursor.type.members = none := by
        simpa [TypeEntry.isOf, TypeEntry.isStruct]
          using notOther .struct (by decide)
      rw [resolve_of_isBytes isKind noMembers]
      exact exists_plan_of_isBytes isKind inside (bounded isKind)

/-- The request for a slot of the contract of a cursor, at its block. -/
def requestAt
    (cursor : Cursor)
    (slot : Int) :
    Request where
  address := cursor.position.address
  slot := slot
  block := cursor.position.block

end Cursor

namespace Contract

variable {hash : Digest} {contract : Contract} {provider : Provider σ}
  {cursor : Cursor} {state : σ} {own : Bytes}

/--
A cursor on a type of one kind is read by its plan, whatever the provider does.

If all calls bring words, the slots of the plan are asked for, and the value is
what the cursor comes to with these words.  Otherwise the slots are asked for up
to the first call that fails, and the fault is the one of this call.
-/
theorem read_follows_plan
    (oneKind : ∃! kind, cursor.type.isOf kind)
    (acyclic : contract.layout.Acyclic)
    (defined :
      ∀ type ∈ contract.layout.types,
        type.isFixedArray → contract.layout.Defines (type.base.getD .null))
    (sizes : contract.layout.ExactSizes)
    (onType : contract.layout.lookup cursor.position.type = .ok cursor.type)
    (inside : inSlotSpace cursor.position.slot)
    (canShow : cursor.position.block.canShow)
    (isOwn :
      ∀ word,
        (provider (cursor.requestAt cursor.position.slot) state).1.word
            (cursor.requestAt cursor.position.slot) =
          .ok word →
        word = own)
    (bounded :
      cursor.type.isBytes →
      ∀ header, Decode.bytesHeader own = .ok header → header.length ≤ 2 ^ 53) :
    ∃ plan,
      cursor.HasPlan hash contract.layout own plan ∧
      (∀ words later,
        provider.Brings cursor.position.address cursor.position.block state plan
          words later →
          contract.read hash provider.recording cursor (state, []) =
            ((cursor.resolve hash contract.layout).resultOf words, later,
              plan.map cursor.requestAt)) ∧
      ∀ asked failing rest words between,
        plan = asked ++ failing :: rest →
        provider.Brings cursor.position.address cursor.position.block state
          asked words between →
        let request := cursor.requestAt failing
        let answer := (provider request between).1
        answer.Fails request →
        (∀ n, answer = .value (.int n) → Value.canWriteInt n) →
          ∃ fault,
            answer.Ends request fault ∧
              contract.read hash provider.recording cursor (state, []) =
                (.error fault, (provider request between).2,
                  (asked ++ [failing]).map cursor.requestAt) := by
  obtain ⟨plan, hasPlan, follows⟩ :
      ∃ plan,
        cursor.HasPlan hash contract.layout own plan ∧
          (cursor.resolve hash contract.layout).Follows own plan :=
    Cursor.exists_plan oneKind acyclic defined sizes
      (Layout.mem_types_of_lookup onType) inside bounded
  -- The plan was made for the word that the first call brings.
  have firstIsOwn {asked rest : List Int} {words : List Bytes} {later : σ}
      (isPlan : plan = asked ++ rest)
      (brings :
        provider.Brings cursor.position.address cursor.position.block state
          asked words later) :
      ∀ word ∈ words.head?, word = own := by
    intro word isFirst
    cases brings with
    | nil =>
        cases isFirst
    | @cons _ _ slot _ _ _ answered _ =>
        cases isFirst
        have isSlot : slot = cursor.position.slot :=
          hasPlan.eq_of_mem_head? inside (by rw [isPlan]; rfl)
        subst isSlot
        exact isOwn word answered
  refine ⟨plan, hasPlan, fun words later brings => ?_, ?_⟩
  · have asks :=
      follows words brings.length_eq
        (firstIsOwn (List.append_nil plan).symm brings)
    exact brings.run_recording canShow asks []
  · intro asked failing rest words between isPlan brings request answer
      fails canWrite
    obtain ⟨fault, isFault⟩ : ∃ fault, answer.word request = .error fault := by
      cases isWord : answer.word request with
      | error fault =>
          exact ⟨fault, rfl⟩
      | ok word =>
          exact absurd isWord (fails.2 word)
    -- The words behind the failing call are never asked for: any will do.
    have asks :
        (cursor.resolve hash contract.layout).Asks (asked ++ failing :: rest)
          (words ++ List.replicate (rest.length + 1) own) := by
      rw [← isPlan]
      refine follows _ (by simp [isPlan, brings.length_eq]) fun word isFirst =>
        ?_
      cases words with
      | nil =>
          cases isFirst
          rfl
      | cons word words =>
          cases isFirst
          exact firstIsOwn isPlan brings word rfl
    exact ⟨fault, Answer.ends_of_word canShow canWrite fails.1 isFault,
      brings.run_recording_of_fault canShow asks isFault []⟩

/-- The cursor on an array of any length at a slot. -/
def manyCursor (slot : Int) : Cursor where
  position := {
    slot := slot
    offset := 0
    type := .text "many"
    address := "0x00"
    block := .text "latest"
  }
  type := manyType
  path := .text "many"

/-- The error of a connection that is lost. -/
def lostConnection : CallError :=
  .raised { kind := .connection, message := "lost" }

/--
A provider that answers two calls with the number two and then loses its
connection.
-/
def failingProvider : Provider Nat :=
  fun _ calls =>
    if calls < 2 then
      (.value (.int 2), calls + 1)
    else
      (.failed lostConnection, calls + 1)

/-- The cursor on an array is on a type of one kind. -/
theorem oneKind_manyType :
    ∃! kind, manyType.isOf kind := by
  refine ⟨.dynamicArray, rfl, fun kind isOf => ?_⟩
  cases kind with
  | dynamicArray =>
      rfl
  | mapping | scalar | struct | fixedArray | bytes =>
      cases isOf

/--
An array of two elements is read up to the second one, at which the connection
is lost.
-/
theorem read_many_up_to_failure :
    ∃ fault,
      fault.family? = some "StorageIOError" ∧
        fault.cause? = some lostConnection ∧
        arrays.read Keccak.digest failingProvider.recording
          (manyCursor 3) (0, []) =
          (.error fault, 3,
            (3 :: Provider.consecutive (dataStart Keccak.digest 3) 2).map
              (manyCursor 3).requestAt) := by
  obtain ⟨plan, hasPlan, -, failed⟩ :=
    @read_follows_plan _ Keccak.digest arrays failingProvider (manyCursor 3) 0
      (Word.ofNat 2)
      oneKind_manyType (by decide +kernel) (by decide +kernel)
        (by decide +kernel) rfl
      (by decide +kernel) rfl
      (fun word isWord => by cases isWord; rfl)
        (fun isBytes => by cases isBytes)
  have isPlan :
      plan = 3 :: Provider.consecutive (dataStart Keccak.digest 3) 2 := by
    cases hasPlan with
    | dynamicArray _ isElement _ =>
        cases isElement
        have isCount :
            (exactArraySpan (Bytes.toNat (Word.ofNat 2)) wordType.size).toNat =
              2 := by
          decide +kernel
        rw [isCount]
        rfl
    | elementsUndefined _ undefined =>
        exact absurd ⟨wordType, rfl⟩ undefined
    | elementsElsewhere _ isElement isElsewhere =>
        cases isElement
        cases isElsewhere.symm.trans
          (Decode.storedElsewhere_of_base_isNone rfl rfl)
    | mapping isKind | scalar isKind | struct isKind | fixedArray isKind
    | bytesRefused isKind | bytesShort isKind | bytesLong isKind =>
        cases isKind
  have isConsecutive := isPlan
  rw [Provider.consecutive_succ, Provider.consecutive_succ] at isConsecutive
  obtain ⟨fault, ends, isRead⟩ :=
    failed [3, dataStart Keccak.digest 3 % slotModulus]
      ((dataStart Keccak.digest 3 + 1) % slotModulus) []
        [Word.ofNat 2, Word.ofNat 2] 2
      isConsecutive
      (.cons rfl (.cons rfl (.nil 2)))
      ⟨by rintro ⟨⟩, by rintro _ ⟨⟩⟩ (by rintro _ ⟨⟩)
  refine ⟨fault, ?_, ?_, ?_⟩
  · cases ends with
    | relayed isReported =>
        cases isReported
    | failed _ isFailedRead _ =>
        exact isFailedRead
  · cases ends with
    | relayed isReported =>
        cases isReported
    | failed _ _ isChained =>
        exact isChained
  · rw [isRead, Provider.consecutive_succ, Provider.consecutive_succ]
    rfl

/-- A provider that answers every call with the same number. -/
def numberProvider (n : Int) : Provider Unit :=
  fun _ _ => (.value (.int n), ())

/--
A number that is too large for a word is refused, but not with a failed read if
it has more digits than can be written.
-/
theorem read_unwritable_number :
    (∃! kind, manyType.isOf kind) ∧
      arrays.layout.Acyclic ∧
      arrays.layout.ExactSizes ∧
      arrays.layout.lookup (manyCursor 3).position.type = .ok manyType ∧
      ∃ fault,
        Word.ofRaw (.int (10 ^ 4300)) = .error fault ∧
          (arrays.read Keccak.digest (numberProvider (10 ^ 4300))
            (manyCursor 3) ()).1 =
            .error fault ∧
          fault.family? = none := by
  have outside : inSlotSpace (10 ^ 4300) = false := by
    decide +kernel
  have isRefused :
      Word.ofRaw (.int (10 ^ 4300)) =
        .error (.read (.valueOutOfRange (10 ^ 4300))) := by
    simp only [Word.ofRaw, outside, Bool.false_eq_true, ↓reduceIte]
  refine ⟨oneKind_manyType, by decide +kernel, by decide +kernel, rfl, _,
    isRefused, ?_, by decide +kernel⟩
  have resolves :
      (manyCursor 3).resolve Keccak.digest arrays.layout =
        (manyCursor 3).readDynamicArray Keccak.digest arrays.layout :=
    Cursor.resolve_of_isDynamicArray rfl rfl
      (Decode.elementInPlace_eq rfl
        (Decode.storedElsewhere_of_base_isNone rfl rfl))
  have failed (request : Request) :
      (numberProvider (10 ^ 4300) request ()).1.word request =
        .error (.read (.valueOutOfRange (10 ^ 4300))) :=
    isRefused
  rw [read, resolves, Cursor.readDynamicArray, Reading.slot_bind,
    Provider.run_word_of_error rfl (failed _)]

end Contract

end EvmStorage
