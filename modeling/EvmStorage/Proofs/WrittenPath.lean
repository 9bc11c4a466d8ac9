import EvmStorage.Proofs.PathText
import EvmStorage.Proofs.WellPlaced

namespace EvmStorage

/-!
# Written paths

Steps that lead from a variable to a value can be written as one text: names
behind dots, indexes in decimal, and keys as their types show them.  The text
leads to the same position, whether it is followed at once or in two pieces.
-/

/-- How a step from a value of a type is written. -/
inductive Step.WrittenAs (type : TypeEntry) : Step → String → Prop where
  | field
      {name : String}
      (areNameChars : Path.isName name) :
      WrittenAs type (.field (.text name)) ("." ++ name)
  | index
      (index : Int) :
      WrittenAs type (.index (.int index)) ("[" ++ toString index ++ "]")
  | key
      {id : String}
      {key : Value}
      {text : String}
      (hasKeys : type.key = some (.text id))
      (written : Key.WrittenAs (Key.Form.ofName (Key.typeName id)) key text) :
      WrittenAs type (.key key) ("[" ++ text ++ "]")

/-- Steps that succeed one after the other, and how they are written. -/
inductive Cursor.Written
    (hash : Digest)
    (layout : Layout) :
    Cursor → List Step → String → Cursor → Prop where
  | here
      (cursor : Cursor) :
      Written hash layout cursor [] "" cursor
  | step
      {cursor next last : Cursor}
      {step : Step}
      {steps : List Step}
      {text more : String}
      (written : step.WrittenAs cursor.type text)
      (stepped : cursor.step hash layout step = .ok next)
      (later : Written hash layout next steps more last) :
      Written hash layout cursor (step :: steps) (text ++ more) last

/--
Whether two cursors stand at one place, and the path of the first one can go
on.
-/
structure Cursor.StandsAt (found cursor : Cursor) : Prop where
  position : found.position = cursor.position
  type : found.type = cursor.type
  path : ∃ path, found.path = .text path

namespace Position

variable {hash : Digest} {layout : Layout} {position next : Position}
  {type : TypeEntry} {step : Step} {text : String}

/-- A step that succeeds is found again in the text that it is written as. -/
theorem exists_spelled_of_stepWithin
    (written : step.WrittenAs type text)
    (canShow : Cursor.canShowStep step)
    (stepped : position.stepWithin hash layout type step = .ok next) :
    ∃ segment,
      Path.Spelled segment text ∧
        position.stepWithin hash layout type (Cursor.stepOf type segment) =
          .ok next := by
  cases written with
  | @field name areNameChars =>
      exact ⟨.name name, .name areNameChars, stepped⟩
  | index index =>
      have areKeyChars : ∀ c ∈ (toString index).toList, c ∈ keyChars :=
        fun _ => Numeral.mem_keyChars_of_mem_toString
      have isText :
          Path.bracketContent (toString index).toList = toString index := by
        rw [Path.bracketContent_of_keyChars areKeyChars, String.ofList_toList]
      have noBracket : ']' ∉ (toString index).toList :=
        fun isIn => (keyChars_facts _ (areKeyChars _ isIn)).2.2.2.2 rfl
      have notEmpty : Path.bracketContent (toString index).toList ≠ "" := by
        rw [isText]
        exact Numeral.toString_ne_empty index
      refine ⟨_, .bracket noBracket notEmpty, ?_⟩
      simp only [stepWithin] at stepped
      split at stepped
      · next isArray =>
          have notMapping := TypeEntry.isMapping_of_isArray isArray
          have short : Value.canWriteInt index := by
            simpa [Cursor.canShowStep, Value.canShow] using canShow
          simp only [Cursor.stepOf, notMapping, isText, stepWithin, isArray,
            Bool.false_eq_true, ↓reduceIte]
          simp only [element, readIndex_toString short]
          exact stepped
      · cases stepped
  | @key id key text hasKeys written =>
      obtain ⟨noBracket, notEmpty⟩ := written.bracketContent_ne
      refine ⟨_, .bracket noBracket notEmpty, ?_⟩
      simp only [stepWithin] at stepped
      split at stepped
      · next isMapping =>
          simp only [Cursor.stepOf, isMapping, ↓reduceIte, stepWithin]
          simp only [Position.entry, hasKeys, Option.getD_some] at stepped ⊢
          obtain ⟨slot, isSlot, isNext⟩ := Outcome.bind_eq_ok_iff.mp stepped
          exact Outcome.bind_eq_ok_iff.mpr
            ⟨slot, mappingSlot_of_writtenAs written canShow isSlot, isNext⟩
      · cases stepped

end Position

namespace Cursor

variable {hash : Digest} {layout : Layout} {cursor found next last : Cursor}
  {step : Step} {steps : List Step} {text : String}

/-- What a part of a path stands for can be shown. -/
theorem canShowStep_stepOf
    (type : TypeEntry)
    (segment : Path.Segment) :
    canShowStep (stepOf type segment) := by
  cases segment with
  | name label =>
      rfl
  | bracket content =>
      simp only [stepOf]
      split <;> rfl

/-- The written form of a step leads to the place that the step leads to. -/
theorem StandsAt.exists_spelled
    (stands : found.StandsAt cursor)
    (onType : layout.lookup cursor.position.type = .ok cursor.type)
    (written : step.WrittenAs cursor.type text)
    (stepped : cursor.step hash layout step = .ok next) :
    ∃ segment other,
      Path.Spelled segment text ∧
        found.step hash layout (stepOf found.type segment) = .ok other ∧
        other.StandsAt next := by
  obtain ⟨canShow, isPosition, _, onNext⟩ := step_eq_ok_iff.mp stepped
  rw [Position.step, onType, Outcome.ok_bind] at isPosition
  obtain ⟨segment, spelled, isPosition⟩ :=
    Position.exists_spelled_of_stepWithin written canShow isPosition
  obtain ⟨path, isPath⟩ := stands.path
  have isText : canShowStep (stepOf found.type segment) :=
    canShowStep_stepOf found.type segment
  have stepsThere :
      found.position.step hash layout (stepOf found.type segment) =
        .ok next.position := by
    rw [stands.position, stands.type, Position.step, onType, Outcome.ok_bind,
      isPosition]
  have goesOn :
      extendPath found.path (stepOf found.type segment) =
        .ok (.text (path ++ stepText (stepOf found.type segment))) := by
    rw [isPath, extendPath]
  exact ⟨segment,
    { next with path := .text (path ++ stepText (stepOf found.type segment)) },
    spelled, step_eq_ok_iff.mpr ⟨isText, stepsThere, goesOn, onNext⟩, rfl,
      rfl, _, rfl⟩

/-- The written form of steps leads to the place that the steps lead to. -/
theorem Written.exists_follow
    (written : cursor.Written hash layout steps text last)
    (onType : layout.lookup cursor.position.type = .ok cursor.type)
    (stands : found.StandsAt cursor) :
    ∃ segments other,
      Path.SpelledAll segments text ∧
        segments.length = steps.length ∧
        found.follow hash layout segments = .ok other ∧
        other.StandsAt last := by
  induction written generalizing found with
  | here cursor =>
      exact ⟨[], found, .nil, rfl, rfl, stands⟩
  | step written stepped later inductionHypothesis =>
      obtain ⟨segment, between, spelled, isBetween, standsBetween⟩ :=
        stands.exists_spelled onType written stepped
      obtain ⟨segments, other, spelledLater, sameLength, isOther,
          standsOther⟩ :=
        inductionHypothesis (step_eq_ok_iff.mp stepped).2.2.2 standsBetween
      refine ⟨segment :: segments, other, .cons spelled spelledLater, ?_, ?_,
        standsOther⟩
      · rw [List.length_cons, List.length_cons, sameLength]
      · rw [follow, isBetween]
        exact isOther

/-- Steps lead to cursors on types that the table has. -/
theorem Written.onType
    (written : cursor.Written hash layout steps text last)
    (onType : layout.lookup cursor.position.type = .ok cursor.type) :
    layout.lookup last.position.type = .ok last.type := by
  induction written with
  | here cursor =>
      exact onType
  | step written stepped later inductionHypothesis =>
      exact inductionHypothesis (step_eq_ok_iff.mp stepped).2.2.2

/-- Steps behind others are written behind them. -/
theorem Written.append
    {between : Cursor}
    {laterSteps : List Step}
    {more : String}
    (written : cursor.Written hash layout steps text between)
    (later : between.Written hash layout laterSteps more last) :
    cursor.Written hash layout (steps ++ laterSteps) (text ++ more) last := by
  induction written with
  | here cursor =>
      simpa using later
  | step written stepped _ inductionHypothesis =>
      rw [List.cons_append, String.append_assoc]
      exact .step written stepped (inductionHypothesis later)

end Cursor

namespace Contract

variable {hash : Digest} {contract : Contract} {start between last : Cursor}
  {label first rest : String} {firstSteps restSteps : List Step}

/--
A cursor on a variable stands where the variable does, and its path is the
label.
-/
theorem onType_of_cursorOn
    {label : Value}
    (onVariable : contract.cursorOn label = .ok start) :
    contract.layout.lookup start.position.type = .ok start.type ∧
      start.path = label := by
  simp only [cursorOn, Cursor.ofPosition, Outcome.bind_eq_ok_iff,
    Outcome.pure_eq_ok, Except.ok.injEq] at onVariable
  obtain ⟨entry, _, type, onType, rfl⟩ := onVariable
  exact ⟨onType, rfl⟩

/--
The text of steps, behind the label of their variable, leads to the place that
they lead to.
-/
theorem exists_followPath_of_written
    {steps : List Step}
    {text : String}
    (areNameChars : Path.isName label)
    (onVariable : contract.cursorOn (.text label) = .ok start)
    (written : start.Written hash contract.layout steps text last) :
    ∃ found,
      contract.followPath hash (label ++ text) = .ok found ∧
        found.StandsAt last := by
  obtain ⟨onType, isLabel⟩ := onType_of_cursorOn onVariable
  obtain ⟨segments, found, spelled, _, isFound, stands⟩ :=
    written.exists_follow onType ⟨rfl, rfl, label, isLabel⟩
  refine ⟨found, ?_, stands⟩
  rw [followPath, spelled.segments_behind areNameChars]
  simp only [Outcome.ok_bind, onVariable]
  exact isFound

/--
A written path leads to the position that its steps lead to.

The steps are taken from the cursor on a variable, and their text is followed
behind the label of the variable: as a whole, and in two pieces, the second of
them from the cursor at which the first one ends.
-/
theorem followPath_of_written
    (areNameChars : Path.isName label)
    (onVariable : contract.cursorOn (.text label) = .ok start)
    (isFirst : start.Written hash contract.layout firstSteps first between)
    (isRest : between.Written hash contract.layout restSteps rest last) :
    (∃ found,
      contract.followPath hash (label ++ first ++ rest) = .ok found ∧
        found.position = last.position) ∧
    (restSteps ≠ [] →
      ∃ halfway found,
        contract.followPath hash (label ++ first) = .ok halfway ∧
          halfway.followPath hash contract.layout (Path.withoutDot rest) =
            .ok found ∧
          found.position = last.position) := by
  constructor
  · obtain ⟨found, isFound, stands⟩ :=
      exists_followPath_of_written areNameChars onVariable
        (isFirst.append isRest)
    exact ⟨found, by rw [String.append_assoc, isFound], stands.position⟩
  · intro someSteps
    obtain ⟨halfway, isHalfway, standsHalfway⟩ :=
      exists_followPath_of_written areNameChars onVariable isFirst
    have onType := isFirst.onType (onType_of_cursorOn onVariable).1
    obtain ⟨segments, found, spelled, sameLength, isFound, stands⟩ :=
      isRest.exists_follow onType standsHalfway
    have someParts : segments ≠ [] := by
      rintro rfl
      exact someSteps (List.length_eq_zero_iff.mp sameLength.symm)
    refine ⟨halfway, found, isHalfway, ?_, stands.position⟩
    rw [Cursor.followPath, spelled.segments_withoutDot someParts]
    exact isFound

/--
One of the flags of an account is found by its path, and by its path from the
account.
-/
theorem followPath_of_writtenFlag :
    ∃ whole halfway found,
      ledger.followPath Keccak.digest "accounts[7].flags[33]" = .ok whole ∧
        ledger.followPath Keccak.digest "accounts[7]" = .ok halfway ∧
        halfway.followPath Keccak.digest ledger.layout "flags[33]" = .ok found ∧
        whole.position = found.position ∧
        found.position.offset = 1 := by
  have reached :
      (do
        let start ← ledger.cursorOn (.text "accounts")
        let account ← start.step Keccak.digest ledger.layout (.key (.int 7))
        let flags ← account.step Keccak.digest ledger.layout
          (.field (.text "flags"))
        let flag ← flags.step Keccak.digest ledger.layout (.index (.int 33))
        return (start.type.key, flag.position.offset)) =
          .ok (some (.text "t_uint256"), 1) :=
    Outcome.eq_ok_of_toOption (by decide +kernel)
  simp only [Outcome.bind_eq_ok_iff, Outcome.pure_eq_ok, Except.ok.injEq,
    Prod.mk.injEq] at reached
  obtain ⟨start, onVariable, account, toAccount, flags, toFlags, flag, toFlag,
      hasKeys, offset⟩ :=
    reached
  have areNameChars : Path.isName "accounts" ∧ Path.isName "flags" := by
    decide +kernel
  have isSeven :
      Key.WrittenAs (Key.Form.ofName (Key.typeName "t_uint256")) (.int 7)
        (toString (7 : Int)) := by
    have isInteger : Key.Form.ofName (Key.typeName "t_uint256") = .integer := by
      decide +kernel
    rw [isInteger]
    exact .integer 7
  obtain ⟨⟨whole, isWhole, samePosition⟩, inPieces⟩ :=
    followPath_of_written areNameChars.1 onVariable
      (.step (.key hasKeys isSeven) toAccount (.here account))
      (.step (.field areNameChars.2) toFlags
        (.step (.index 33) toFlag (.here flag)))
  obtain ⟨halfway, found, isHalfway, isFound, sameAgain⟩ :=
    inPieces (List.cons_ne_nil _ _)
  have isFirst :
      "accounts" ++ ("[" ++ toString (7 : Int) ++ "]" ++ "") =
        "accounts[7]" := by
    decide +kernel
  have isRest :
      "." ++ "flags" ++ ("[" ++ toString (33 : Int) ++ "]" ++ "") =
        ".flags[33]" := by
    decide +kernel
  have isRemainder : Path.withoutDot ".flags[33]" = "flags[33]" := by
    decide +kernel
  have isPath : "accounts[7]" ++ ".flags[33]" = "accounts[7].flags[33]" := by
    decide +kernel
  rw [isFirst, isRest, isPath] at isWhole
  rw [isFirst] at isHalfway
  rw [isRest, isRemainder] at isFound
  exact ⟨whole, halfway, found, isWhole, isHalfway, isFound,
    samePosition.trans sameAgain.symm,
    by rw [sameAgain, offset]⟩

/-- A mapping from truth values of one byte. -/
def switches : Contract where
  address := "0x00"
  layout := {
    stateVariables := [
      { label := .text "flags", type := .text "flags", slot := 0, offset := 0 }
    ]
    types := [
      { id := "t_bool", label := .text "bool", encoding := .inplace, size := 1,
        base := none, key := none, value := none, members := none },
      { id := "flags", label := .text "mapping(bool8 => bool)",
        encoding := .mapping, size := 32,
        base := none, key := some (.text "t_bool8"),
          value := some (.text "t_bool"),
        members := none }
    ]
  }
  defaultBlock := .text "latest"

/--
A truth value is a key of a type of truth values of one byte, but its text is
none.
-/
theorem followPath_of_flag_with_measure :
    ∃ start last,
      switches.cursorOn (.text "flags") = .ok start ∧
        start.step Keccak.digest switches.layout
          (.key (.bool true)) = .ok last ∧
        ∀ found, switches.followPath Keccak.digest "flags[1]" ≠ .ok found := by
  have reached :
      (do
        let start ← switches.cursorOn (.text "flags")
        let last ← start.step Keccak.digest switches.layout (.key (.bool true))
        return last.position.offset) = .ok 0 :=
    Outcome.eq_ok_of_toOption (by decide +kernel)
  simp only [Outcome.bind_eq_ok_iff, Outcome.pure_eq_ok] at reached
  obtain ⟨start, onVariable, last, stepped, _⟩ := reached
  have notFound :
      (switches.followPath Keccak.digest "flags[1]").toOption = none := by
    decide +kernel
  refine ⟨start, last, onVariable, stepped, fun found isFound => ?_⟩
  rw [isFound] at notFound
  cases notFound

end Contract

end EvmStorage
