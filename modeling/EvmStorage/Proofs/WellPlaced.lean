import EvmStorage.Contract
import EvmStorage.Proofs.ByteString
import EvmStorage.Proofs.Nesting
import EvmStorage.Proofs.Memory
import EvmStorage.Proofs.Span

namespace EvmStorage

/-!
# Where paths can lead

In a layout of the shape that compilers give to layouts every path that starts
at a variable leads to a slot that exists, and to an offset at which a value of
its type may start: a scalar ends within its slot, and everything else starts
a slot of its own.
-/

/-- The types that a type refers to. -/
def TypeEntry.references (type : TypeEntry) : List Value :=
  (type.members.getD []).map Variable.type ++ type.base.toList ++
    if type.isMapping then [type.value.getD .null] else []

/-- The sizes that compilers give to types. -/
structure TypeEntry.WellSized (type : TypeEntry) : Prop where
  scalar : type.isScalar → 0 < type.size ∧ type.size ≤ 32
  whole : type.isStruct ∨ type.isFixedArray → 0 < type.size ∧ 32 ∣ type.size
  elsewhere : type.encoding ≠ .inplace → type.size = 32

/-- Whether a value of a type may start at an offset. -/
def TypeEntry.FitsAt
    (type : TypeEntry)
    (offset : Int) :
    Prop :=
  0 ≤ offset ∧ if type.isScalar then offset + type.size ≤ 32 else offset = 0

/-- Whether a table has a type. -/
def Layout.Defines
    (layout : Layout)
    (id : Value) :
    Prop :=
  ∃ type, layout.lookup id = .ok type

/--
Whether a table has a type, and values of the type may start at an offset.
-/
def Layout.FitsAt
    (layout : Layout)
    (id : Value)
    (offset : Int) :
    Prop :=
  ∃ type, layout.lookup id = .ok type ∧ type.FitsAt offset

/-- The shape that compilers give to layouts. -/
structure Layout.WellShaped (layout : Layout) : Prop where
  defined : ∀ type ∈ layout.types, ∀ id ∈ type.references, layout.Defines id
  sizes : ∀ type ∈ layout.types, type.WellSized
  members :
    ∀ type ∈ layout.types, ∀ member ∈ type.members.getD [],
      layout.FitsAt member.type member.offset
  stateVariables :
    ∀ entry ∈ layout.stateVariables,
      inSlotSpace entry.slot ∧ layout.FitsAt entry.type entry.offset

instance (type : TypeEntry) : Decidable type.WellSized :=
  decidable_of_iff
    ((type.isScalar → 0 < type.size ∧ type.size ≤ 32) ∧
      (type.isStruct ∨ type.isFixedArray → 0 < type.size ∧ 32 ∣ type.size) ∧
      (type.encoding ≠ .inplace → type.size = 32))
    ⟨fun ⟨scalar, whole, elsewhere⟩ => { scalar, whole, elsewhere },
      fun wellSized => ⟨wellSized.scalar, wellSized.whole, wellSized.elsewhere⟩⟩

instance (type : TypeEntry) (offset : Int) : Decidable (type.FitsAt offset) :=
  inferInstanceAs (Decidable (_ ∧ _))

instance (layout : Layout) (id : Value) : Decidable (layout.Defines id) :=
  match found : layout.lookup id with
  | .ok type => isTrue ⟨type, found⟩
  | .error _ => isFalse (by simp [Layout.Defines, found])

instance (layout : Layout) (id : Value) (offset : Int) :
    Decidable (layout.FitsAt id offset) :=
  match found : layout.lookup id with
  | .ok type =>
    decidable_of_iff (type.FitsAt offset) (by simp [Layout.FitsAt, found])
  | .error _ => isFalse (by simp [Layout.FitsAt, found])

instance (layout : Layout) : Decidable layout.WellShaped :=
  decidable_of_iff
    ((∀ type ∈ layout.types, ∀ id ∈ type.references, layout.Defines id) ∧
      (∀ type ∈ layout.types, type.WellSized) ∧
      (∀ type ∈ layout.types, ∀ member ∈ type.members.getD [],
        layout.FitsAt member.type member.offset) ∧
      ∀ entry ∈ layout.stateVariables,
        inSlotSpace entry.slot ∧ layout.FitsAt entry.type entry.offset)
    ⟨fun ⟨defined, sizes, members, stateVariables⟩ =>
        { defined, sizes, members, stateVariables },
      fun shaped =>
        ⟨shaped.defined, shaped.sizes, shaped.members, shaped.stateVariables⟩⟩

/--
Whether a position is one of a contract, at a slot and an offset of its type.
-/
structure Position.WellPlaced
    (layout : Layout)
    (address : String)
    (position : Position) :
    Prop where
  inside : inSlotSpace position.slot
  fits : layout.FitsAt position.type position.offset
  ofContract : position.address = address

/-- A value of any type may start at the start of a slot. -/
theorem TypeEntry.WellSized.fitsAt_zero
    {type : TypeEntry}
    (wellSized : type.WellSized) :
    type.FitsAt 0 := by
  refine ⟨le_refl _, ?_⟩
  split
  · next isScalar =>
      simpa using (wellSized.scalar isScalar).2
  · rfl

/-- What is no scalar takes whole slots. -/
theorem TypeEntry.WellSized.dvd_of_not_isScalar
    {type : TypeEntry}
    (wellSized : type.WellSized)
    (notScalar : ¬ type.isScalar) :
    32 ∣ type.size := by
  by_cases isInPlace : type.encoding = .inplace
  · exact (wellSized.whole
      (TypeEntry.isStruct_or_isFixedArray isInPlace notScalar)).2
  · rw [wellSized.elsewhere isInPlace]

/-- A Keccak hash has 32 bytes. -/
theorem Keccak.digest_lt (message : Bytes) :
    Keccak.digest message < 2 ^ 256 := by
  have isWord : (Keccak.hash message).length = 32 := by
    simp [Keccak.hash, Keccak.bytesOfLane]
  have below := Bytes.toNat_lt (Keccak.hash message)
  rw [isWord] at below
  exact below

section Slots

variable {hash : Digest} {slot found : Int}

/-- A hash of 32 bytes is a slot. -/
private theorem inSlotSpace_hash
    (isWord : ∀ message, hash message < 2 ^ 256)
    (message : Bytes) :
    inSlotSpace (hash message) := by
  have below : (hash message : Int) < ((2 ^ 256 : Nat) : Int) :=
    Int.ofNat_lt.mpr (isWord message)
  have isModulus : slotModulus = ((2 ^ 256 : Nat) : Int) := by
    decide
  rw [← isModulus] at below
  simp [inSlotSpace, below]

/-- Values of mappings start at slots that exist. -/
theorem inSlotSpace_mappingSlot
    {key : Value}
    {typeName : String}
    (isWord : ∀ message, hash message < 2 ^ 256)
    (isSlot : mappingSlot hash key slot typeName = .ok found) :
    inSlotSpace found := by
  unfold mappingSlot at isSlot
  split at isSlot
  all_goals
    simp only [Outcome.bind_eq_ok_iff, Outcome.pure_eq_ok, Except.ok.injEq]
      at isSlot
  · obtain ⟨_, _, _, _, rfl⟩ := isSlot
    exact inSlotSpace_hash isWord _
  · obtain ⟨_, _, rfl⟩ := isSlot
    exact inSlotSpace_hash isWord _

end Slots

/-- An element of an array may start at the offset at which it is placed. -/
theorem TypeEntry.fitsAt_exactPlace
    {type : TypeEntry}
    {index : Int}
    (positive : 0 < type.size)
    (small : type.isScalar → type.size ≤ 32)
    (whole : ¬ type.isScalar → 32 ∣ type.size) :
    type.FitsAt (exactPlace index type.size).offset := by
  refine ⟨exactPlace_offset_nonneg positive, ?_⟩
  split
  · next isScalar =>
      exact exactPlace_offset_add_le positive (small isScalar)
  · next notScalar =>
      exact exactPlace_offset_of_dvd positive (whole notScalar)

theorem TypeEntry.WellSized.fitsAt_elementPlace
    {type : TypeEntry}
    {index : Int}
    {place : ElementPlace}
    (wellSized : type.WellSized)
    (isPlace : elementPlace index type.size = .ok place) :
    type.FitsAt place.offset := by
  obtain ⟨positive, sameOffset⟩ := offset_of_elementPlace isPlace
  rw [sameOffset]
  exact fitsAt_exactPlace positive (fun isScalar =>
    (wellSized.scalar isScalar).2)
    wellSized.dvd_of_not_isScalar

/-- A member that is found is one of the members. -/
theorem TypeEntry.mem_members_of_member
    {type : TypeEntry}
    {name : Value}
    {found : Variable}
    (isFound : type.member name = .ok found) :
    found ∈ type.members.getD [] := by
  unfold TypeEntry.member at isFound
  split at isFound
  · cases isFound
  · next members hasMembers =>
      split at isFound
      · next isMember =>
          cases isFound
          rw [hasMembers]
          exact List.mem_of_find?_eq_some isMember
      · cases isFound

/-- A variable that is found is one of the variables. -/
theorem Layout.mem_stateVariables_of_topLevel
    {layout : Layout}
    {label : Value}
    {found : Variable}
    (isFound : layout.topLevel label = .ok found) :
    found ∈ layout.stateVariables := by
  unfold Layout.topLevel at isFound
  split at isFound
  · split at isFound
    · next isEntry =>
        cases isFound
        exact List.mem_reverse.mp (List.mem_of_find?_eq_some isEntry)
    · cases isFound
  · cases isFound

namespace Position.WellPlaced

variable {hash : Digest} {layout : Layout} {address : String}
  {position next : Position} {type : TypeEntry}

/-- A step to a member of a struct leads to a well-placed position. -/
theorem member
    {name : Value}
    (shaped : layout.WellShaped)
    (placed : position.WellPlaced layout address)
    (inTable : type ∈ layout.types)
    (stepped : position.member type name = .ok next) :
    next.WellPlaced layout address := by
  simp only [Position.member, Outcome.bind_eq_ok_iff, Outcome.pure_eq_ok,
    Except.ok.injEq] at stepped
  obtain ⟨found, isFound, rfl⟩ := stepped
  exact
    { inside := inSlotSpace_emod _
      fits := shaped.members type inTable found
        (TypeEntry.mem_members_of_member isFound)
      ofContract := placed.ofContract }

/-- A step to a value of a mapping leads to a well-placed position. -/
theorem entry
    {key : Value}
    (shaped : layout.WellShaped)
    (isWord : ∀ message, hash message < 2 ^ 256)
    (placed : position.WellPlaced layout address)
    (inTable : type ∈ layout.types)
    (isMapping : type.isMapping)
    (stepped : position.entry hash type key = .ok next) :
    next.WellPlaced layout address := by
  unfold Position.entry at stepped
  split at stepped
  · simp only [Outcome.bind_eq_ok_iff, Outcome.pure_eq_ok, Except.ok.injEq]
      at stepped
    obtain ⟨slot, isSlot, rfl⟩ := stepped
    have isReference : type.value.getD .null ∈ type.references := by
      simp [TypeEntry.references, isMapping]
    obtain ⟨found, isFound⟩ := shaped.defined type inTable _ isReference
    have wellSized := shaped.sizes found (Layout.mem_types_of_lookup isFound)
    exact
      { inside := inSlotSpace_mappingSlot isWord isSlot
        fits := ⟨found, isFound, wellSized.fitsAt_zero⟩
        ofContract := placed.ofContract }
  · cases stepped

/-- A step to an element of an array leads to a well-placed position. -/
theorem element
    {index : Value}
    (shaped : layout.WellShaped)
    (placed : position.WellPlaced layout address)
    (stepped : position.element hash layout type index = .ok next) :
    next.WellPlaced layout address := by
  simp only [Position.element, Layout.sizeOf, Outcome.bind_eq_ok_iff,
    Outcome.pure_eq_ok, Except.ok.injEq] at stepped
  obtain ⟨_, _, _, ⟨base, isBase, rfl⟩, _, _, place, isPlace, rfl⟩ := stepped
  have wellSized := shaped.sizes base (Layout.mem_types_of_lookup isBase)
  exact
    { inside := inSlotSpace_emod _
      fits := ⟨base, isBase, wellSized.fitsAt_elementPlace isPlace⟩
      ofContract := placed.ofContract }

/-- Every step leads from a well-placed position to a well-placed one. -/
theorem step
    {step : Step}
    (shaped : layout.WellShaped)
    (isWord : ∀ message, hash message < 2 ^ 256)
    (placed : position.WellPlaced layout address)
    (stepped : position.step hash layout step = .ok next) :
    next.WellPlaced layout address := by
  simp only [Position.step, Outcome.bind_eq_ok_iff] at stepped
  obtain ⟨type, isType, stepped⟩ := stepped
  have inTable := Layout.mem_types_of_lookup isType
  cases step with
  | field name =>
      simp only [stepWithin] at stepped
      split at stepped
      · exact placed.member shaped inTable stepped
      · cases stepped
  | key key =>
      simp only [stepWithin] at stepped
      split at stepped
      · next isMapping =>
          exact placed.entry shaped isWord inTable isMapping stepped
      · cases stepped
  | index index =>
      simp only [stepWithin] at stepped
      split at stepped
      · exact placed.element shaped stepped
      · cases stepped

/--
Steps one after the other lead from a well-placed position to a well-placed
one.
-/
theorem steps
    {steps : List Step}
    (shaped : layout.WellShaped)
    (isWord : ∀ message, hash message < 2 ^ 256)
    (placed : position.WellPlaced layout address)
    (stepped :
      steps.foldlM (fun current => current.step hash layout) position =
        .ok next) :
    next.WellPlaced layout address := by
  induction steps generalizing position with
  | nil =>
      cases stepped
      exact placed
  | cons first rest inductionHypothesis =>
      simp only [List.foldlM_cons, Outcome.bind_eq_ok_iff] at stepped
      obtain ⟨between, steppedFirst, steppedRest⟩ := stepped
      exact inductionHypothesis
        (placed.step shaped isWord steppedFirst) steppedRest

end Position.WellPlaced

namespace Cursor

variable {hash : Digest} {layout : Layout} {cursor next : Cursor}

/--
A cursor moves if its position does, its path can go on, and the type is in the
table.
-/
theorem step_eq_ok_iff
    {step : Step} :
    cursor.step hash layout step = .ok next ↔
      canShowStep step ∧
        cursor.position.step hash layout step = .ok next.position ∧
        extendPath cursor.path step = .ok next.path ∧
        layout.lookup next.position.type = .ok next.type := by
  unfold Cursor.step
  split
  · next canShow =>
      simp only [Cursor.ofPosition, Outcome.bind_eq_ok_iff, Outcome.pure_eq_ok,
        Except.ok.injEq, canShow, true_and]
      constructor
      · rintro ⟨position, isPosition, path, isPath, type, isType, rfl⟩
        exact ⟨isPosition, isPath, isType⟩
      · rintro ⟨isPosition, isPath, isType⟩
        exact ⟨_, isPosition, _, isPath, _, isType, rfl⟩
  · next cannotShow =>
      simp [cannotShow]

/-- A cursor moves as its position does. -/
theorem position_of_step
    {step : Step}
    (stepped : cursor.step hash layout step = .ok next) :
    cursor.position.step hash layout step = .ok next.position :=
  (step_eq_ok_iff.mp stepped).2.1

/-- A cursor moves along a path as its position does. -/
theorem position_of_steps
    {steps : List Step}
    (stepped :
      steps.foldlM (fun current => current.step hash layout) cursor =
        .ok next) :
    steps.foldlM (fun current => current.step hash layout) cursor.position =
      .ok next.position := by
  induction steps generalizing cursor with
  | nil =>
      cases stepped
      rfl
  | cons first rest inductionHypothesis =>
      simp only [List.foldlM_cons, Outcome.bind_eq_ok_iff] at stepped ⊢
      obtain ⟨between, steppedFirst, steppedRest⟩ := stepped
      exact ⟨_, position_of_step steppedFirst, inductionHypothesis steppedRest⟩

end Cursor

namespace Contract

variable {contract : Contract} {label : Value} {cursor : Cursor}

/-- A cursor on a variable is at a well-placed position. -/
theorem wellPlaced_of_cursorOn
    (shaped : contract.layout.WellShaped)
    (onVariable : contract.cursorOn label = .ok cursor) :
    cursor.position.WellPlaced contract.layout contract.address := by
  simp only [Contract.cursorOn, Cursor.ofPosition, Outcome.bind_eq_ok_iff,
    Outcome.pure_eq_ok, Except.ok.injEq] at onVariable
  obtain ⟨entry, isEntry, type, _, rfl⟩ := onVariable
  obtain ⟨inside, fits⟩ :=
    shaped.stateVariables entry (Layout.mem_stateVariables_of_topLevel isEntry)
  exact { inside, fits, ofContract := rfl }

/--
Every path that starts at a variable leads to a well-placed position.

This holds for the positions alone, and for the cursors, which also keep the
text of the path.
-/
theorem wellPlaced_of_steps
    {hash : Digest}
    {steps : List Step}
    (shaped : contract.layout.WellShaped)
    (isWord : ∀ message, hash message < 2 ^ 256)
    (onVariable : contract.cursorOn label = .ok cursor) :
    (∀ position,
      steps.foldlM
        (fun current => current.step hash contract.layout) cursor.position =
          .ok position →
      position.WellPlaced contract.layout contract.address) ∧
    ∀ next,
      steps.foldlM
        (fun current => current.step hash contract.layout) cursor = .ok next →
      next.position.WellPlaced contract.layout contract.address := by
  have start := wellPlaced_of_cursorOn shaped onVariable
  constructor
  · intro position stepped
    exact start.steps shaped isWord stepped
  · intro next stepped
    exact start.steps shaped isWord (Cursor.position_of_steps stepped)

/-- A table of structs, each with a flag and with forty flags in two slots. -/
def ledger : Contract where
  address := "0x00"
  layout := {
    stateVariables := [
      { label := .text "accounts", type := .text "accounts",
        slot := 0, offset := 0 }
    ]
    types := [
      { id := "flag", label := .text "bool", encoding := .inplace, size := 1,
        base := none, key := none, value := none, members := none },
      { id := "flags", label := .text "bool[40]",
        encoding := .inplace, size := 64,
        base := some (.text "flag"), key := none, value := none,
          members := none },
      { id := "account", label := .text "struct Account",
        encoding := .inplace, size := 96,
        base := none, key := none, value := none,
        members := some [
          { label := .text "active", type := .text "flag",
            slot := 0, offset := 0 },
          { label := .text "flags", type := .text "flags",
            slot := 1, offset := 0 }
        ] },
      { id := "accounts", label := .text "mapping(uint256 => struct Account)",
        encoding := .mapping, size := 32, base := none,
        key := some (.text "t_uint256"), value := some (.text "account"),
          members := none }
    ]
  }
  defaultBlock := .text "latest"

/-- The steps to one of the flags of an account. -/
def flagSteps : List Step :=
  [.key (.int 7), .field (.text "flags"), .index (.int 33)]

/--
One of the flags of an account is at a slot that exists, and ends within it.
-/
theorem wellPlaced_of_flagSteps :
    ∃ cursor last,
      ledger.cursorOn (.text "accounts") = .ok cursor ∧
        flagSteps.foldlM
          (fun current => current.step Keccak.digest ledger.layout) cursor =
          .ok last ∧
        last.position.offset = 1 ∧
        last.position.WellPlaced ledger.layout ledger.address := by
  have reached :
      ((ledger.cursorOn (.text "accounts") >>= fun cursor =>
        flagSteps.foldlM
          (fun current => current.step Keccak.digest ledger.layout) cursor).map
          fun last => last.position.offset) = .ok 1 :=
    Outcome.eq_ok_of_toOption (by decide +kernel)
  simp only [Outcome.map_eq_ok_iff, Outcome.bind_eq_ok_iff] at reached
  obtain ⟨last, ⟨cursor, onVariable, stepped⟩, offset⟩ := reached
  exact ⟨cursor, last, onVariable, stepped, offset,
    (wellPlaced_of_steps (by decide +kernel) Keccak.digest_lt onVariable).2
      last stepped⟩

end Contract

end EvmStorage
