import EvmStorage.Layout.Report
import EvmStorage.Proofs.PartPlaces
import EvmStorage.Proofs.PromisedReads
import EvmStorage.Proofs.RefusedKeys

namespace EvmStorage

/-!
# Paths that keep to the promised faults

Getting to a value by a path or by steps, and reading it, either succeeds or
ends with a fault of one of the families that callers are told of.  Every step
keeps the numbers of a cursor short enough to be shown, and leads to a slot
that exists.
-/

open Outcome (Keeps)

variable {hash : Digest} {layout : Layout} {type : TypeEntry}

namespace Layout

/--
A type that is read from its fields has a type of keys if it is a mapping.
-/
theorem isSome_key_of_readType
    {entry : String × Value}
    (isRead : readType entry = .ok type)
    (isMapping : type.isMapping) :
    type.key.isSome := by
  unfold readType at isRead
  split at isRead
  · simp only [readTypeFields, Outcome.bind_eq_ok_iff] at isRead
    obtain ⟨_, _, _, _, _, _, _, _, _, _, _, _, isRead⟩ := isRead
    split at isRead
    · cases isRead
    next hasKey =>
    split at isRead
    · cases isRead
    · obtain rfl := Except.ok.inj isRead
      simp only [TypeEntry.isMapping, decide_eq_true_eq] at isMapping
      simp only [isMapping, true_and, not_or] at hasKey
      exact Option.isSome_iff_ne_none.mpr fun isNone =>
        hasKey.1 (Option.isNone_iff_eq_none.mpr isNone)
  · cases isRead

/-- A mapping of an accepted report has a type of keys. -/
theorem isSome_key_of_ofReport
    {report : Value}
    (accepted : ofReport report = .ok layout)
    (inTable : type ∈ layout.types)
    (isMapping : type.isMapping) :
    type.key.isSome := by
  obtain ⟨part, areTypes⟩ : ∃ part, readTypes part = .ok layout.types := by
    unfold ofReport at accepted
    split at accepted
    · dsimp only at accepted
      split at accepted
      · cases accepted
      · simp only [Outcome.bind_eq_ok_iff] at accepted
        obtain ⟨types, areTypes, _, _, accepted⟩ := accepted
        split at accepted
        · obtain rfl := Except.ok.inj accepted
          exact ⟨_, areTypes⟩
        · cases accepted
    · cases accepted
  unfold readTypes at areTypes
  split at areTypes
  · rw [← Except.ok.inj areTypes] at inTable
    cases inTable
  · obtain ⟨entry, _, isRead⟩ := Outcome.exists_of_mem_mapM areTypes inTable
    exact isSome_key_of_readType isRead isMapping
  · cases areTypes

end Layout

/-- That a key is refused is reported if the key can be shown. -/
theorem Key.Judges.keeps
    {key : Value}
    {computation : Except Fault α}
    (judges : Judges key computation)
    (canShow : key.canShow) :
    Keeps computation fun _ => True := by
  cases judges with
  | ok result =>
      exact .ok trivial
  | refused shows =>
      exact .error (by simp [shows, canShow])

/-- A key and a slot are encoded, or it is reported that they are not. -/
theorem keeps_keyAndSlotWords
    {key : Value}
    (canShow : key.canShow)
    (slot : Int)
    (name : String) :
    Keeps (keyAndSlotWords hash key slot name) fun _ => True := by
  unfold keyAndSlotWords
  split
  · exact .error (by simp [UnsupportedFault.shownValues])
  · refine ((Key.judges_coerce name).keeps canShow).bind fun given _ => ?_
    split
    · split
      · exact .ok trivial
      · exact (Key.judges_notEncodable name).keeps canShow
    · exact (Key.judges_notEncodable name).keeps canShow

/--
A key leads to a slot that exists, or it is reported that it leads nowhere.
-/
theorem keeps_mappingSlot
    {key : Value}
    {slot : Int}
    (isWord : ∀ message, hash message < 2 ^ 256)
    (canShow : key.canShow)
    (canWrite : Value.canWriteInt slot)
    (name : String) :
    Keeps (mappingSlot hash key slot name) fun found => inSlotSpace found := by
  refine Keeps.eq_ok ?_ |>.mono fun found isSlot =>
    inSlotSpace_mappingSlot isWord isSlot
  unfold mappingSlot
  split
  · refine ((judges_wholeKey name).keeps canShow).bind fun _ _ => ?_
    unfold Word.ofSlot
    split
    · exact .ok trivial
    · exact .error (by simp [SchemaFault.shownValues, canWrite])
  · exact (keeps_keyAndSlotWords canShow slot name).bind fun _ _ => .ok trivial

namespace Path

/-- Whether the number that a bracket may write is short enough to be shown. -/
def Segment.isShowable : Segment → Bool
  | .name _ => true
  | .bracket content => (Numeral.ofText? content).all Value.canWriteInt

/--
Whether the numbers that the brackets of a path write are short enough to be
shown.
-/
def Showable (path : String) : Prop :=
  ∀ segments, Path.segments path = .ok segments → ∀ segment ∈ segments,
    segment.isShowable

instance (path : String) : Decidable (Showable path) :=
  inferInstanceAs
    (Decidable
      (∀ segments, Path.segments path = .ok segments → ∀ segment ∈ segments,
        segment.isShowable))

/-- A part of a path is scanned, or it is reported that there is none. -/
theorem keeps_scanSegment
    (path : String)
    (position : Nat)
    (isFirst : Bool)
    (c : Char)
    (rest : List Char) :
    Keeps (scanSegment path position isFirst c rest) fun _ => True := by
  have unexpected :
      Keeps (.error (.notFound (.pathUnexpected c position path)) :
        Except Fault (Scanned (c :: rest))) fun _ => True :=
    .error (by simp [NotFoundFault.shownValues])
  unfold scanSegment
  dsimp only
  split
  · split
    · exact .error (by simp [NotFoundFault.shownValues])
    · split
      · exact .error (by simp [NotFoundFault.shownValues])
      · exact .ok trivial
  split
  · split
    · exact unexpected
    · exact .ok trivial
  split
  · split
    · exact unexpected
    · exact .ok trivial
  · exact unexpected

/-- The parts of a path are scanned one after the other. -/
theorem keeps_segmentsFrom
    (path : String)
    (position : Nat)
    (isFirst : Bool)
    (s : List Char) :
    Keeps (segmentsFrom path position isFirst s) fun _ => True := by
  fun_induction segmentsFrom path position isFirst s with
  | case1 =>
      exact .ok trivial
  | case2 position isFirst c rest fault isFault =>
      have scanned := keeps_scanSegment path position isFirst c rest
      rw [isFault] at scanned
      cases scanned with
      | error isReported =>
          exact .error isReported
  | case3 position isFirst c rest scanned isScanned taken inductionHypothesis =>
      exact inductionHypothesis.bind fun _ _ => .ok trivial

/-- A path is taken apart, or it is reported where it is malformed. -/
theorem keeps_segments (path : String) :
    Keeps (segments path) fun found => segments path = .ok found := by
  refine Keeps.eq_ok ?_
  unfold segments
  refine (keeps_segmentsFrom path 0 true path.toList).bind fun found _ => ?_
  split
  · exact .error (by simp [NotFoundFault.shownValues])
  · exact .ok trivial

end Path

/--
Whether the numbers of a step can be shown: those it holds, and the one an
index writes.
-/
def Step.isShowable (step : Step) : Bool :=
  Cursor.canShowStep step &&
    match step with
    | .index (.text s) => (Numeral.ofText? s).all Value.canWriteInt
    | _ => true

/-- The numbers that a step holds can be shown. -/
theorem Step.canShowStep_of_isShowable
    {step : Step}
    (isShowable : step.isShowable) :
    Cursor.canShowStep step := by
  simp only [Step.isShowable, Bool.and_eq_true] at isShowable
  exact isShowable.1

namespace Position

/--
Whether a position is on a slot that exists, and its type is looked up if there
is one.
-/
structure LeadsOn
    (layout : Layout)
    (position : Position) :
    Prop where
  inside : inSlotSpace position.slot
  offset : Value.canWriteInt position.offset
  block : position.block.canShow
  lookedUp :
    Keeps (layout.lookup position.type) fun type =>
      layout.lookup position.type = .ok type

variable {position : Position}

/-- An index is read, or it is reported that it is none. -/
theorem keeps_readIndex
    {index : Value}
    (isShowable : Step.isShowable (.index index)) :
    Keeps (readIndex index) fun number =>
      0 ≤ number ∧ Value.canWriteInt number := by
  simp only [Step.isShowable, Cursor.canShowStep, Bool.and_eq_true]
    at isShowable
  obtain ⟨canShow, canWriteText⟩ := isShowable
  have notInteger {holds : Int → Prop} :
      Keeps (.error (.notFound (.indexNotInteger index))) holds :=
    .error (by simp [NotFoundFault.shownValues, canShow])
  unfold readIndex
  dsimp only
  refine Keeps.bind
    (?_ : Keeps _ fun number => Value.canWriteInt number) fun number canWrite =>
      ?_
  · split
    · exact .ok canShow
    · split
      · next isNumber =>
          exact .ok (by simpa [isNumber] using canWriteText)
      · exact notInteger
    · exact notInteger
  · split
    · exact .error (by simp [NotFoundFault.shownValues, canWrite])
    · next nonneg =>
        exact .ok ⟨not_lt.mp nonneg, canWrite⟩

/-- A step to a member of a struct leads on. -/
theorem keeps_member
    {name : Value}
    (textual : layout.Textual)
    (regular : layout.Regular)
    (inTable : type ∈ layout.types)
    (block : position.block.canShow)
    (canShow : name.canShow) :
    Keeps (position.member type name) (LeadsOn layout) := by
  have found : Keeps (type.member name) fun _ => True := by
    unfold TypeEntry.member
    split
    · exact .error
        (by simp [SchemaFault.shownValues, textual.canShow_label inTable])
    · split
      · exact .ok trivial
      · exact .error (by simp [NotFoundFault.shownValues, canShow])
  refine found.eq_ok.bind fun member isFound => .ok ?_
  have isMember := TypeEntry.mem_members_of_member isFound
  exact
    { inside := inSlotSpace_emod _
      offset := (regular.members type inTable member isMember).1
      block := block
      lookedUp :=
        @keeps_lookup_getD layout (some member.type)
          (by simpa using (textual.members type inTable member isMember).2) }

/-- A step to a value of a mapping leads on. -/
theorem keeps_entry
    {key : Value}
    (textual : layout.Textual)
    (isWord : ∀ message, hash message < 2 ^ 256)
    (inTable : type ∈ layout.types)
    (hasKey : type.key.isSome)
    (canWrite : Value.canWriteInt position.slot)
    (block : position.block.canShow)
    (canShow : key.canShow) :
    Keeps (position.entry hash type key) (LeadsOn layout) := by
  obtain ⟨id, isKey⟩ := Option.isSome_iff_exists.mp hasKey
  obtain ⟨name, rfl⟩ :=
    Value.exists_of_isText
      (textual.references type inTable id (by simp [isKey]))
  simp only [entry, isKey, Option.getD_some]
  refine (keeps_mappingSlot isWord canShow canWrite _).bind fun slot inside =>
    .ok ?_
  exact
    { inside := inside
      offset := Value.canWriteInt_of_le le_rfl (Int.pow_nonneg (by decide))
      block := block
      lookedUp :=
        keeps_lookup_getD fun id isValue =>
          textual.references type inTable id
            (by simp [Option.mem_def.mp isValue]) }

/-- A step to an element of an array leads on. -/
theorem keeps_element
    {index : Value}
    (textual : layout.Textual)
    (regular : layout.Regular)
    (inTable : type ∈ layout.types)
    (hashable : type.isDynamicArray → inSlotSpace position.slot)
    (block : position.block.canShow)
    (isShowable : Step.isShowable (.index index)) :
    Keeps (position.element hash layout type index) (LeadsOn layout) := by
  have lookedUp := textual.keeps_elementOf inTable
  unfold element
  refine (keeps_readIndex isShowable).bind fun number ⟨nonneg, canWrite⟩ => ?_
  have sized :
      Keeps (layout.sizeOf (type.base.getD .null)) fun size =>
        size.natAbs < spanBound :=
    lookedUp.bind fun element found =>
      .ok (regular.sizes element (Layout.mem_types_of_lookup found))
  refine sized.bind fun size bounded => ?_
  have start :
      Keeps (position.elementsStart hash type number) fun _ => True := by
    unfold elementsStart
    split
    · next isDynamicArray =>
        rw [dataSlot_eq (hashable isDynamicArray)]
        exact .ok trivial
    · refine (regular.keeps_fixedLength textual inTable).bind fun length _ => ?_
      split
      · exact .error (by
          simp [NotFoundFault.shownValues, canWrite,
            textual.canShow_label inTable])
      · exact .ok trivial
  refine start.bind fun _ _ => ?_
  refine (keeps_elementPlace nonneg bounded).bind fun place isPlace => .ok ?_
  exact
    { inside := inSlotSpace_emod _
      offset := canWriteInt_of_elementPlace isPlace
      block := block
      lookedUp := lookedUp }

end Position

/-- What a layout must be like for paths and reads to keep the promise. -/
structure Layout.Promising (layout : Layout) : Prop where
  textual : layout.Textual
  regular : layout.Regular
  acyclic : layout.Acyclic
  keys : ∀ type ∈ layout.types, type.isMapping → type.key.isSome

/-- Every step that can be shown leads on. -/
theorem Position.keeps_stepWithin
    {position : Position}
    {step : Step}
    (promising : layout.Promising)
    (isWord : ∀ message, hash message < 2 ^ 256)
    (inTable : type ∈ layout.types)
    (canWrite : Value.canWriteInt position.slot)
    (block : position.block.canShow)
    (hashable : type.isDynamicArray → inSlotSpace position.slot)
    (isShowable : step.isShowable) :
    Keeps (position.stepWithin hash layout type step) (LeadsOn layout) := by
  have textual := promising.textual
  have regular := promising.regular
  have canShowLabel := textual.canShow_label inTable
  have canShowStep := Step.canShowStep_of_isShowable isShowable
  cases step with
  | field name =>
      have canShow : name.canShow := canShowStep
      simp only [stepWithin]
      split
      · exact keeps_member textual regular inTable block canShow
      · exact .error
          (by simp [NotFoundFault.shownValues, canShowLabel, canShow])
  | key key =>
      have canShow : key.canShow := canShowStep
      simp only [stepWithin]
      split
      · next isMapping =>
          exact keeps_entry textual isWord inTable
            (promising.keys type inTable isMapping) canWrite block canShow
      · exact .error
          (by simp [NotFoundFault.shownValues, canShowLabel, canShow])
  | index index =>
      simp only [stepWithin]
      split
      · exact keeps_element textual regular inTable hashable block isShowable
      · exact .error (by simp [NotFoundFault.shownValues, canShowLabel])

namespace Cursor

variable {cursor : Cursor}

/-- A cursor at a position that leads on can be shown. -/
theorem keeps_ofPosition
    {position : Position}
    {path : Value}
    (leadsOn : position.LeadsOn layout)
    (pathIsText : path.isText) :
    Keeps (ofPosition layout position path) (Showable layout) := by
  refine leadsOn.lookedUp.bind fun type found => .ok ?_
  obtain ⟨nonneg, below⟩ : 0 ≤ position.slot ∧ position.slot < slotModulus := by
    simpa [inSlotSpace] using leadsOn.inside
  rw [slotModulus_eq] at below
  exact
    { onType := found
      pathIsText := pathIsText
      slot := Value.canWriteInt_of_le nonneg below.le
      offset := leadsOn.offset
      block := leadsOn.block
      hashable := fun _ => leadsOn.inside }

/-- A step that can be shown keeps a cursor such that it can be shown. -/
theorem keeps_step
    {step : Step}
    (promising : layout.Promising)
    (isWord : ∀ message, hash message < 2 ^ 256)
    (showable : cursor.Showable layout)
    (isShowable : step.isShowable) :
    Keeps (cursor.step hash layout step) (Showable layout) := by
  have canShowStep := Step.canShowStep_of_isShowable isShowable
  obtain ⟨path, isPath⟩ := Value.exists_of_isText showable.pathIsText
  have stepped :=
    @Position.keeps_stepWithin hash layout cursor.type cursor.position step
      promising isWord
      (Layout.mem_types_of_lookup showable.onType) showable.slot showable.block
      (fun isDynamicArray => showable.hashable (.inl isDynamicArray)) isShowable
  simp only [Cursor.step, canShowStep, ↓reduceIte, Position.step,
    showable.onType, Outcome.ok_bind, isPath, extendPath]
  exact stepped.bind fun position leadsOn => keeps_ofPosition leadsOn rfl

/-- The parts of a path lead to a cursor that can be shown. -/
theorem keeps_follow
    {segments : List Path.Segment}
    (promising : layout.Promising)
    (isWord : ∀ message, hash message < 2 ^ 256)
    (showable : cursor.Showable layout)
    (areShowable : ∀ segment ∈ segments, segment.isShowable) :
    Keeps (cursor.follow hash layout segments) (Showable layout) := by
  induction segments generalizing cursor with
  | nil =>
      exact .ok showable
  | cons segment rest inductionHypothesis =>
      obtain ⟨segmentShowable, restShowable⟩ :=
        List.forall_mem_cons.mp areShowable
      have stepShowable : (stepOf cursor.type segment).isShowable := by
        cases segment with
        | name label =>
            rfl
        | bracket content =>
            simp only [stepOf]
            split
            · rfl
            · simpa [Step.isShowable, canShowStep, Path.Segment.isShowable]
                using segmentShowable
      exact (keeps_step promising isWord showable stepShowable).bind
        fun next isNext => inductionHypothesis isNext restShowable

/-- A path from a cursor on leads to a cursor that can be shown. -/
theorem keeps_followPath
    {path : String}
    (promising : layout.Promising)
    (isWord : ∀ message, hash message < 2 ^ 256)
    (showable : cursor.Showable layout)
    (pathShowable : Path.Showable path) :
    Keeps (cursor.followPath hash layout path) (Showable layout) :=
  (Path.keeps_segments path).bind fun segments areSegments =>
    keeps_follow promising isWord showable (pathShowable segments areSegments)

/-- A way from a cursor to another one: a step or a path. -/
inductive Move where
  | step (taken : Step)
  | path (text : String)

/-- Whether the numbers of a move can be shown. -/
def Move.Showable : Move → Prop
  | .step taken => taken.isShowable
  | .path text => Path.Showable text

instance : (move : Move) → Decidable move.Showable
  | .step taken => inferInstanceAs (Decidable (taken.isShowable = true))
  | .path text => inferInstanceAs (Decidable (Path.Showable text))

/-- The cursor that a move leads to. -/
def move
    (hash : Digest)
    (layout : Layout)
    (cursor : Cursor) :
    Move →
    Except Fault Cursor
  | .step taken => cursor.step hash layout taken
  | .path text => cursor.followPath hash layout text

/-- Every move that can be shown leads to a cursor that can be shown. -/
theorem keeps_move
    {move : Move}
    (promising : layout.Promising)
    (isWord : ∀ message, hash message < 2 ^ 256)
    (showable : cursor.Showable layout)
    (moveShowable : move.Showable) :
    Keeps (cursor.move hash layout move) (Showable layout) := by
  cases move with
  | step taken =>
      exact keeps_step promising isWord showable moveShowable
  | path text =>
      exact keeps_followPath promising isWord showable moveShowable

end Cursor

namespace Contract

variable {contract : Contract}

/-- Where moves start: at a variable or at the end of a path. -/
inductive Start where
  | name (label : String)
  | path (text : String)

/-- Whether the numbers of a start can be shown. -/
def Start.Showable : Start → Prop
  | .name _ => True
  | .path text => Path.Showable text

instance : (start : Start) → Decidable start.Showable
  | .name _ => inferInstanceAs (Decidable True)
  | .path text => inferInstanceAs (Decidable (Path.Showable text))

/-- The cursor at which moves start. -/
def startAt
    (hash : Digest)
    (contract : Contract) :
    Start →
    Except Fault Cursor
  | .name label => contract.cursorOn (.text label)
  | .path text => contract.followPath hash text

/-- The value to which moves lead from a start, read from a provider. -/
def visit
    (hash : Digest)
    (contract : Contract)
    (provider : Provider σ)
    (start : Start)
    (moves : List Cursor.Move)
    (state : σ) :
    Except Fault Value := do
  let first ← contract.startAt hash start
  let cursor ← moves.foldlM (Cursor.move hash contract.layout) first
  (contract.read hash provider cursor state).1

/--
A variable is a cursor that can be shown, or it is reported that there is none.
-/
theorem keeps_cursorOn
    (promising : contract.layout.Promising)
    (canShow : contract.defaultBlock.canShow)
    (label : String) :
    Keeps (contract.cursorOn (.text label))
      (Cursor.Showable contract.layout) := by
  have found :
      Keeps (contract.layout.topLevel (.text label)) fun _ => True := by
    simp only [Layout.topLevel, Value.isLabel, ↓reduceIte]
    split
    · exact .ok trivial
    · exact .error (by simp [NotFoundFault.shownValues])
  refine found.eq_ok.bind fun entry isFound => ?_
  have isEntry := Layout.mem_stateVariables_of_topLevel isFound
  have lookedUp :=
    @keeps_lookup_getD contract.layout (some entry.type)
      (by simpa using (promising.textual.stateVariables entry isEntry).2)
  refine lookedUp.bind fun type isType => .ok ?_
  exact
    { onType := isType
      pathIsText := rfl
      slot := (promising.regular.places entry isEntry).1
      offset := (promising.regular.places entry isEntry).2
      block := canShow
      hashable := promising.regular.hashable entry isEntry type isType }

/--
A path leads to a cursor that can be shown, or it is reported why it does not.
-/
theorem keeps_followPath
    {path : String}
    (promising : contract.layout.Promising)
    (isWord : ∀ message, hash message < 2 ^ 256)
    (canShow : contract.defaultBlock.canShow)
    (pathShowable : Path.Showable path) :
    Keeps (contract.followPath hash path)
      (Cursor.Showable contract.layout) := by
  refine (Path.keeps_segments path).bind fun segments areSegments => ?_
  have areShowable := pathShowable segments areSegments
  split
  · next label rest =>
      refine (keeps_cursorOn promising canShow label).bind
        fun cursor showable => ?_
      exact Cursor.keeps_follow promising isWord showable fun segment isIn =>
        areShowable segment (List.mem_cons_of_mem _ isIn)
  · exact .error (by simp [NotFoundFault.shownValues])

/--
Getting to a value and reading it returns the value or ends with a fault that is
reported, in an accepted report whose unchecked parts are as they must be.
-/
theorem isPromised_visit
    {report : Value}
    {provider : Provider σ}
    {start : Start}
    {moves : List Cursor.Move}
    (accepted : Layout.ofReport report = .ok contract.layout)
    (textual : contract.layout.Textual)
    (acyclic : contract.layout.Acyclic)
    (regular : contract.layout.Regular)
    (isWord : ∀ message, hash message < 2 ^ 256)
    (canShow : contract.defaultBlock.canShow)
    (responds : provider.Responds)
    (startShowable : start.Showable)
    (movesShowable : ∀ move ∈ moves, move.Showable)
    (state : σ) :
    Outcome.isPromised (contract.visit hash provider start moves state) := by
  have promising : contract.layout.Promising :=
    { textual := textual
      regular := regular
      acyclic := acyclic
      keys := fun _ inTable isMapping =>
        Layout.isSome_key_of_ofReport accepted inTable isMapping }
  have starts :
      Keeps (contract.startAt hash start)
        (Cursor.Showable contract.layout) := by
    cases start with
    | name label =>
        exact keeps_cursorOn promising canShow label
    | path text =>
        exact keeps_followPath promising isWord canShow startShowable
  have visited :
      Keeps (contract.visit hash provider start moves state) fun _ => True := by
    refine starts.bind fun first firstShowable => ?_
    refine (Keeps.foldlM firstShowable fun cursor showable move isMove =>
      Cursor.keeps_move promising isWord showable
        (movesShowable move isMove)).bind fun cursor showable => ?_
    exact responds.keeps_run showable.block
      (Cursor.keepsPromise_resolve textual regular acyclic showable) state
  exact visited.isPromised

/-- A variable or a member as a report gives it. -/
def reportedVariable
    (label type : String)
    (slot : Int) :
    Value :=
  .record [("label", .text label), ("type", .text type), ("slot", .int slot)]

/-- A type as a report gives it, with the fields that not all types have. -/
def reportedType
    (id encoding label : String)
    (size : Int)
    (further : List (String × Value)) :
    String × Value :=
  (id, .record ([("encoding", .text encoding), ("label", .text label),
    ("numberOfBytes", .int size)] ++ further))

/-- A type stored in place, without members and elements. -/
def plainType
    (id label : String)
    (size : Int) :
    TypeEntry where
  id := id
  label := .text label
  encoding := .inplace
  size := size
  base := none
  key := none
  value := none
  members := none

/-- A variable or a member at the start of a slot. -/
def slotVariable
    (label type : String)
    (slot : Int) :
    Variable where
  label := .text label
  type := .text type
  slot := slot
  offset := 0

/-- A report of an owner and of flags in one struct. -/
def vaultReport : Value :=
  .record [
    ("storage", .list [reportedVariable "vault" "vault" 0]),
    ("types", .record [
      reportedType "owner" "inplace" "address" 20 [],
      reportedType "flag" "inplace" "bool" 1 [],
      reportedType "flags" "mapping" "mapping(uint256 => bool)" 32
        [("key", .text "t_uint256"), ("value", .text "flag")],
      reportedType "vault" "inplace" "struct Vault" 64
        [("members", .list [reportedVariable "owner" "owner" 0,
          reportedVariable "flags" "flags" 1])]])]

/-- The contract of the report of an owner and of flags. -/
def vault : Contract where
  address := "0x00"
  layout := {
    stateVariables := [slotVariable "vault" "vault" 0]
    types := [
      plainType "owner" "address" 20,
      plainType "flag" "bool" 1,
      { plainType "flags" "mapping(uint256 => bool)" 32 with
        encoding := .mapping, key := some (.text "t_uint256"),
          value := some (.text "flag") },
      { plainType "vault" "struct Vault" 64 with
        members := some [slotVariable "owner" "owner" 0,
          slotVariable "flags" "flags" 1] }]
  }
  defaultBlock := .text "latest"

/-- A provider that loses its connection ends every call. -/
theorem responds_failingProvider : failingProvider.Responds where
  notCancelled request calls := by
    unfold failingProvider
    split <;> exact nofun
  notSilent request calls := by
    unfold failingProvider
    split <;> exact nofun
  canWrite request calls n isNumber := by
    unfold failingProvider at isNumber
    split at isNumber
    · cases isNumber
      decide +kernel
    · cases isNumber

/--
A flag is found by a step and a path, but the connection is lost when it is
read.
-/
theorem isPromised_visit_vault :
    Outcome.isPromised
      (vault.visit Keccak.digest failingProvider (.path "vault")
        [.step (.field (.text "flags")), .path "[7]"] 2) := by
  have accepted : Layout.ofReport vaultReport = .ok vault.layout :=
    Outcome.eq_ok_of_toOption (by decide +kernel)
  exact isPromised_visit accepted (by decide +kernel) (by decide +kernel)
    (by decide +kernel)
    Keccak.digest_lt rfl responds_failingProvider (by decide +kernel)
      (by decide +kernel) 2

/-- A report whose sizes, slots and labels do not fit together. -/
def misfitReport : Value :=
  .record [
    ("storage", .list [
      reportedVariable "owner" "owner" 0,
      reportedVariable "many" "many" slotModulus,
      reportedVariable "box" "box" 0,
      reportedVariable "delta" "delta" 0]),
    ("types", .record [
      reportedType "owner" "inplace" "address" 1 [],
      reportedType "many" "dynamic_array" "int0[]" 32 [("base", .text "delta")],
      reportedType "nothing" "inplace" "uint8" 0 [],
      reportedType "box" "inplace" "struct Box" 32
        [("members", .list [reportedVariable "nothing" "nothing" 0])],
      reportedType "delta" "inplace" "int0" 1 []])]

/-- The contract of a report whose parts do not fit together. -/
def misfits : Contract where
  address := "0x00"
  layout := {
    stateVariables := [
      slotVariable "owner" "owner" 0,
      slotVariable "many" "many" slotModulus,
      slotVariable "box" "box" 0,
      slotVariable "delta" "delta" 0]
    types := [
      plainType "owner" "address" 1,
      { plainType "many" "int0[]" 32 with
        encoding := .dynamicArray, base := some (.text "delta") },
      plainType "nothing" "uint8" 0,
      { plainType "box" "struct Box" 32 with
        members := some [slotVariable "nothing" "nothing" 0] },
      plainType "delta" "int0" 1]
  }
  defaultBlock := .text "latest"

/--
In a report whose sizes, slots and labels do not fit together, none of the
variables can be read, and none of the faults is reported.
-/
theorem not_isPromised_visit_misfits :
    Layout.ofReport misfitReport = .ok misfits.layout ∧
      misfits.layout.Textual ∧
      misfits.layout.Acyclic ∧
      (numberProvider 0).Responds ∧
      ∀ label ∈ ["owner", "many", "box", "delta"],
        Outcome.isPromised
          (misfits.visit Keccak.digest (numberProvider 0) (.name label) [] ()) =
            false :=
  ⟨Outcome.eq_ok_of_toOption (by decide +kernel),
    by decide +kernel, by decide +kernel,
    { notCancelled := nofun
      notSilent := nofun
      canWrite := by
        rintro _ _ _ ⟨⟩
        decide +kernel },
    by decide +kernel⟩

end Contract

end EvmStorage
