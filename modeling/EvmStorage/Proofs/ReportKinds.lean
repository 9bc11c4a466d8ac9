import EvmStorage.Layout.Report
import EvmStorage.Proofs.PromisedFaults
import EvmStorage.Proofs.ReadDocuments

namespace EvmStorage

/-!
# Kinds of the parts of a report

A report loads, or is refused as malformed with a message, unless the first
thing that is wrong with it is the JSON kind of one of its parts.  Types are
checked for being objects; the table of types, the list of variables, the lists
of members, the entries of both lists and the labels of variables are not.
-/

namespace Outcome

/--
Whether a computation on a report returns a value, refuses the report with a
message, or comes upon a part of a wrong kind, and when it does the last.
-/
inductive RefusesUnless (computation : Except Fault α) (wrongKind : Prop) :
    Prop where
  | ok
      {result : α}
      (isResult : computation = .ok result)
      (rightKinds : ¬ wrongKind)
  | refused
      {cause : SchemaFault}
      (isRefusal : computation = .error (.schema cause))
      (hasMessage : (Fault.schema cause).isReported)
      (rightKinds : ¬ wrongKind)
  | misshapen
      {part : ReportPart}
      (isKind : computation = .error (.misuse (.partOfWrongKind part)))
      (isWrong : wrongKind)

namespace RefusesUnless

variable {computation : Except Fault α} {wrongKind : Prop}

/-- A refusal with a message does not come from a wrong kind. -/
theorem of_refused
    {cause : SchemaFault}
    (hasMessage : (Fault.schema cause).isReported) :
    RefusesUnless (.error (.schema cause) : Except Fault α) False :=
  .refused rfl hasMessage not_false

/-- A value that is returned does not come from a wrong kind. -/
theorem of_ok (result : α) :
    RefusesUnless (.ok result) False :=
  .ok rfl not_false

theorem congr
    {other : Prop}
    (judges : RefusesUnless computation wrongKind)
    (same : wrongKind ↔ other) :
    RefusesUnless computation other := by
  rwa [propext same] at judges

/-- The second of two steps is reached if the first one returns a value. -/
theorem bind
    {next : α → Except Fault β}
    {later : α → Prop}
    (judges : RefusesUnless computation wrongKind)
    (goesOn :
      ∀ result,
        computation = .ok result → RefusesUnless (next result) (later result)) :
    RefusesUnless (computation >>= next)
      (wrongKind ∨ ∃ result, computation = .ok result ∧ later result) := by
  cases judges with
  | @ok result isResult rightKinds =>
      have later := goesOn result isResult
      rw [isResult, ok_bind]
      exact later.congr (by simp [rightKinds])
  | refused isRefusal hasMessage rightKinds =>
      refine .refused (by rw [isRefusal, error_bind]) hasMessage ?_
      simp [isRefusal, rightKinds]
  | misshapen isKind isWrong =>
      exact .misshapen (by rw [isKind, error_bind]) (.inl isWrong)

/-- If the first of two steps looks at no kind, only the second one may. -/
theorem bind_of_false
    {next : α → Except Fault β}
    (checks : RefusesUnless computation False)
    (goesOn :
      ∀ result,
        computation = .ok result → RefusesUnless (next result) wrongKind) :
    RefusesUnless (computation >>= next)
      ((∃ result, computation = .ok result) ∧ wrongKind) :=
  (checks.bind goesOn).congr (by simp)

/-- Two steps that look at no kind can be made one after the other. -/
theorem seq
    {next : α → Except Fault β}
    (checks : RefusesUnless computation False)
    (goesOn :
      ∀ result, computation = .ok result → RefusesUnless (next result) False) :
    RefusesUnless (computation >>= next) False :=
  (checks.bind_of_false goesOn).congr (by simp)

end RefusesUnless

/-- Whether all items of a list up to one are read, and this one is wrong. -/
inductive ComesUpon (reads wrong : α → Prop) : List α → Prop where
  | here
      {item : α}
      {behind : List α}
      (isWrong : wrong item) :
      ComesUpon reads wrong (item :: behind)
  | later
      {item : α}
      {behind : List α}
      (isRead : reads item)
      (comesUpon : ComesUpon reads wrong behind) :
      ComesUpon reads wrong (item :: behind)

theorem comesUpon_cons_iff
    {reads wrong : α → Prop}
    {item : α}
    {behind : List α} :
    ComesUpon reads wrong (item :: behind) ↔
      wrong item ∨ reads item ∧ ComesUpon reads wrong behind := by
  constructor
  · intro comesUpon
    cases comesUpon with
    | here isWrong =>
        exact .inl isWrong
    | later isRead comesUpon =>
        exact .inr ⟨isRead, comesUpon⟩
  · rintro (isWrong | ⟨isRead, comesUpon⟩)
    · exact .here isWrong
    · exact .later isRead comesUpon

/--
Steps over a list come upon the first item that is wrong, if those before are
read.
-/
theorem RefusesUnless.mapM
    {step : α → Except Fault β}
    {wrong : α → Prop}
    {items : List α}
    (steps : ∀ item ∈ items, RefusesUnless (step item) (wrong item)) :
    RefusesUnless (items.mapM step)
      (ComesUpon (fun item => ∃ result, step item = .ok result)
        wrong items) := by
  induction items with
  | nil =>
      exact .ok rfl nofun
  | cons item rest inductionHypothesis =>
      obtain ⟨first, others⟩ := List.forall_mem_cons.mp steps
      rw [List.mapM_cons]
      have goesOn (result : β) :=
        (inductionHypothesis others).bind fun results _ =>
          of_ok (result :: results)
      refine (first.bind fun result _ => goesOn result).congr ?_
      simp [comesUpon_cons_iff]

/-- A step on what is there, if something is, comes upon what is wrong there. -/
theorem RefusesUnless.mapM_option
    {step : α → Except Fault β}
    {wrong : α → Prop}
    {given : Option α}
    (steps : ∀ item ∈ given, RefusesUnless (step item) (wrong item)) :
    RefusesUnless (given.mapM step) (∃ item ∈ given, wrong item) := by
  cases given with
  | none =>
      exact .ok rfl (by simp)
  | some item =>
      have checks := (steps item rfl).bind fun result _ => of_ok (some result)
      rw [Option.mapM_some]
      exact checks.congr (by simp)

end Outcome

namespace Layout

open Outcome (RefusesUnless ComesUpon)

variable {fields entries : List (String × Value)} {value : Value}

/-- A number is read, or refused with a message that shows it. -/
theorem refusesUnless_readInt
    (canShow : value.canShow)
    (what : String) :
    RefusesUnless (readInt value what) False := by
  have refused :
      RefusesUnless
        (.error (.schema (.invalidNumber what value)) : Except Fault Int)
        False :=
    .of_refused (by simp [SchemaFault.shownValues, canShow])
  unfold readInt
  dsimp only
  split
  · exact .of_ok _
  · exact refused
  · split
    · exact .of_ok _
    · exact refused

/-- A part of an object is found, or missed with a message. -/
theorem refusesUnless_require
    {missing : String → SchemaFault}
    (hasMessage : ∀ part, (Fault.schema (missing part)).isReported)
    (part : String) :
    RefusesUnless
      (require fields part fun part => .schema (missing part)) False := by
  unfold require
  split
  · exact .of_ok _
  · exact .of_refused (hasMessage part)

/-- What is found in an object can be shown if all its fields can. -/
theorem canShow_of_field?
    {part : String}
    (canShow : ∀ field ∈ fields, field.2.canShow)
    (found : Value.field? fields part = some value) :
    value.canShow :=
  canShow _ (Value.mem_of_field? found)

theorem require_eq_ok_iff
    {part : String}
    {missing : String → Fault} :
    require fields part missing = .ok value ↔
      Value.field? fields part = some value := by
  unfold require
  split <;> simp_all

/-- A variable is read from its fields, or refused with a message. -/
theorem refusesUnless_readVariable
    {missing : String → SchemaFault}
    (hasMessage : ∀ part, (Fault.schema (missing part)).isReported)
    (canShow : ∀ field ∈ fields, field.2.canShow)
    (owner : String) :
    RefusesUnless
      (readVariable owner (fun part => .schema (missing part)) fields)
      False := by
  have offsetShown :
      ((Value.field? fields "offset").getD (.int 0)).canShow := by
    cases isOffset : Value.field? fields "offset" with
    | none =>
        exact Value.canWriteInt_of_le le_rfl (by decide)
    | some offset =>
        exact canShow_of_field? canShow isOffset
  unfold readVariable
  refine (refusesUnless_require hasMessage _).seq fun label _ => ?_
  refine (refusesUnless_require hasMessage _).seq fun type _ => ?_
  refine (refusesUnless_require hasMessage _).seq fun slotValue isSlot => ?_
  have slotShown := canShow_of_field? canShow (require_eq_ok_iff.mp isSlot)
  refine (refusesUnless_readInt slotShown _).seq fun slot _ => ?_
  exact (refusesUnless_readInt offsetShown _).seq fun offset _ => .of_ok _

/-- Whether a value is an object. -/
def IsObject (value : Value) : Prop :=
  ∃ fields, value = .record fields

/-- A variable is read from an object, and from nothing else. -/
theorem refusesUnless_readEntry
    {missing : String → SchemaFault}
    (hasMessage : ∀ part, (Fault.schema (missing part)).isReported)
    (canShow : value.canShow)
    (owner : String)
    (part : ReportPart) :
    RefusesUnless
      (readEntry owner (fun part => .schema (missing part)) part value)
      (¬ IsObject value) := by
  unfold readEntry
  split
  · next fields =>
      have fieldsShown := Value.canShowFields_iff.mp canShow
      exact (refusesUnless_readVariable hasMessage fieldsShown owner).congr
        (by simp [IsObject])
  · next noRecord =>
      exact .misshapen rfl fun ⟨fields, isRecord⟩ => noRecord fields isRecord

/-- Whether a part of a report is read as a member of a struct. -/
def IsMember (id : String) (entry : Value) : Prop :=
  ∃ member,
    readEntry (id ++ ".")
      (fun part => .schema (.memberPartMissing id part)) .memberEntry entry =
      .ok member

/-- Whether a part of a report is read as a variable of the contract. -/
def IsStateVariable (entry : Value) : Prop :=
  ∃ stateVariable,
    readEntry ""
      (fun part => .schema (.variablePartMissing part)) .variableEntry entry =
      .ok stateVariable

/-- Whether a part of a report is read as a type. -/
def IsType (entry : String × Value) : Prop :=
  ∃ type, readType entry = .ok type

/--
Whether members of a struct are listed, or none are given in some other way.
-/
def ListsMembers : Value → Prop
  | .list _ => True
  | .text s => s.isEmpty
  | .record fields => fields.isEmpty
  | _ => False

/--
Whether the first thing wrong with the members of a struct is the kind of a
part.
-/
inductive MisshapenMembers (id : String) : Value → Prop where
  | kind
      {value : Value}
      (noMembers : ¬ ListsMembers value) :
      MisshapenMembers id value
  | entry
      {entries : List Value}
      (comesUpon :
        ComesUpon (IsMember id) (fun entry => ¬ IsObject entry) entries) :
      MisshapenMembers id (.list entries)

/--
Whether the first thing wrong with a type is the kind of a part of its members.
-/
structure MisshapenType (entry : String × Value)
    (fields : List (String × Value)) : Prop where
  isObject : entry.2 = .record fields
  label : (Value.field? fields "label").isSome
  encoding :
    ∃ value ∈ Value.field? fields "encoding", ∃ encoding,
      readEncoding entry.1 value = .ok encoding
  size :
    ∃ value ∈ Value.field? fields "numberOfBytes", ∃ size,
      readInt value ("numberOfBytes of `" ++ entry.1 ++ "`") = .ok size
  members : ∃ value ∈ given? fields "members", MisshapenMembers entry.1 value

/--
Whether the first thing wrong with a table of types is the kind of a part.
-/
inductive MisshapenTypes : Option Value → Prop where
  | kind
      {part : Value}
      (isGiven : part.truthy)
      (noObject : ¬ IsObject part) :
      MisshapenTypes (some part)
  | entry
      {entries : List (String × Value)}
      (comesUpon :
        ComesUpon IsType
          (fun entry => ∃ fields, MisshapenType entry fields) entries) :
      MisshapenTypes (some (.record entries))

/--
Whether the first thing wrong with a list of variables is the kind of a part.
-/
inductive MisshapenVariables : Value → Prop where
  | kind
      {part : Value}
      (isGiven : part.truthy)
      (noList : ∀ entries, part ≠ .list entries) :
      MisshapenVariables part
  | entry
      {entries : List Value}
      (comesUpon :
        ComesUpon IsStateVariable (fun entry => ¬ IsObject entry) entries) :
      MisshapenVariables (.list entries)

/-- Whether the first thing wrong with a report is the kind of a part. -/
inductive Misshapen : Value → Prop where
  | types
      {outer : List (String × Value)}
      (hasStorage : (Value.field? (unwrap outer) "storage").isSome)
      (misshapen : MisshapenTypes (Value.field? (unwrap outer) "types")) :
      Misshapen (.record outer)
  | stateVariables
      {outer : List (String × Value)}
      {storage : Value}
      {types : List TypeEntry}
      (hasStorage : Value.field? (unwrap outer) "storage" = some storage)
      (areTypes : readTypes (Value.field? (unwrap outer) "types") = .ok types)
      (misshapen : MisshapenVariables storage) :
      Misshapen (.record outer)
  | label
      {outer : List (String × Value)}
      {storage : Value}
      {types : List TypeEntry}
      {stateVariables : List Variable}
      (hasStorage : Value.field? (unwrap outer) "storage" = some storage)
      (areTypes : readTypes (Value.field? (unwrap outer) "types") = .ok types)
      (areVariables : readVariables storage = .ok stateVariables)
      {entry : Variable}
      (isVariable : entry ∈ stateVariables)
      (noLabel : entry.label.isLabel = false) :
      Misshapen (.record outer)

theorem misshapenMembers_iff
    {id : String}
    (noList : ∀ entries, value ≠ .list entries) :
    MisshapenMembers id value ↔ ¬ ListsMembers value := by
  refine ⟨fun misshapen => ?_, .kind⟩
  cases misshapen with
  | kind noMembers =>
      exact noMembers
  | entry =>
      exact absurd rfl (noList _)

/-- The members of a struct are read from a list of objects. -/
theorem refusesUnless_readMembers
    (canShow : value.canShow)
    (id : String) :
    RefusesUnless (readMembers id value) (MisshapenMembers id value) := by
  cases value with
  | list entries =>
      have itemsShown := Value.canShowItems_iff.mp canShow
      have areRead :=
        RefusesUnless.mapM fun entry isEntry =>
          @refusesUnless_readEntry entry (.memberPartMissing id) (fun _ => rfl)
            (itemsShown entry isEntry) (id ++ ".") .memberEntry
      refine areRead.congr ⟨.entry, fun misshapen => ?_⟩
      cases misshapen with
      | kind noMembers =>
          exact absurd trivial noMembers
      | entry comesUpon =>
          exact comesUpon
  | text s =>
      rw [misshapenMembers_iff (by simp)]
      by_cases isEmpty : s.isEmpty
      · exact .ok (if_pos isEmpty) (not_not_intro isEmpty)
      · exact .misshapen (if_neg isEmpty) isEmpty
  | record fields =>
      rw [misshapenMembers_iff (by simp)]
      by_cases isEmpty : fields.isEmpty
      · exact .ok (if_pos isEmpty) (not_not_intro isEmpty)
      · exact .misshapen (if_neg isEmpty) isEmpty
  | null | bool | int | float | bytes | struct =>
      exact .misshapen rfl (.kind not_false)

/--
The word for an encoding is known, or refused with a message that shows it.
-/
theorem refusesUnless_readEncoding
    (canShow : value.canShow)
    (id : String) :
    RefusesUnless (readEncoding id value) False := by
  have refused :
      RefusesUnless
        (.error (.schema (.unknownEncoding id value)) : Except Fault Encoding)
        False :=
    .of_refused (by simp [SchemaFault.shownValues, canShow])
  unfold readEncoding
  dsimp only
  split
  · split
    · exact .of_ok _
    · exact refused
  · exact refused

/--
A type is read from the fields of an object, and its members from a list of
objects.
-/
theorem refusesUnless_readTypeFields
    (canShow : ∀ field ∈ fields, field.2.canShow)
    (id : String) :
    RefusesUnless (readTypeFields id fields)
      (∃ other, MisshapenType (id, .record fields) other) := by
  have isThere (part : String) :=
    @refusesUnless_require fields (.typePartMissing id) (fun _ => rfl) part
  have shown {part : String} {missing : String → Fault} {value : Value}
      (isPart : require fields part missing = .ok value) : value.canShow :=
    canShow_of_field? canShow (require_eq_ok_iff.mp isPart)
  have membersRead :
      RefusesUnless ((given? fields "members").mapM (readMembers id))
        (∃ value ∈ given? fields "members", MisshapenMembers id value) := by
    refine .mapM_option fun value isGiven => refusesUnless_readMembers ?_ id
    have found : Value.field? fields "members" = some value := by
      unfold given? at isGiven
      split at isGiven
      · cases isGiven
      · exact isGiven
    exact canShow_of_field? canShow found
  unfold readTypeFields
  refine RefusesUnless.congr
    ((isThere "label").bind_of_false fun label _ =>
      (isThere "encoding").bind fun encodingValue isEncoding =>
        (isThere "numberOfBytes").bind fun sizeValue isSize =>
          (refusesUnless_readInt (shown isSize) _).bind_of_false fun size _ =>
            (refusesUnless_readEncoding (shown isEncoding) id).bind_of_false
              fun encoding _ =>
              membersRead.bind fun members _ => (?_ : RefusesUnless _ False)) ?_
  · dsimp only
    split
    · exact .of_refused rfl
    · split
      · exact .of_refused rfl
      · exact .of_ok _
  · simp only [require_eq_ok_iff, false_or, and_false, exists_false, or_false]
    constructor
    · rintro ⟨⟨label, isLabel⟩, encodingValue, isEncoding, sizeValue, isSize,
        hasSize, hasEncoding, hasMembers⟩
      exact ⟨fields,
        rfl, by simp [isLabel], ⟨encodingValue, isEncoding, hasEncoding⟩,
        ⟨sizeValue, isSize, hasSize⟩, hasMembers⟩
    · rintro ⟨other, isOther, hasLabel,
        ⟨encodingValue, isEncoding, hasEncoding⟩,
        ⟨sizeValue, isSize, hasSize⟩, hasMembers⟩
      obtain rfl := Value.record.inj isOther
      exact ⟨Option.isSome_iff_exists.mp hasLabel, encodingValue, isEncoding,
        sizeValue, isSize, hasSize, hasEncoding, hasMembers⟩

/-- A type is read from an object, and its members from a list of objects. -/
theorem refusesUnless_readType
    {entry : String × Value}
    (canShow : entry.2.canShow) :
    RefusesUnless (readType entry) (∃ fields, MisshapenType entry fields) := by
  obtain ⟨id, value⟩ := entry
  cases value with
  | record fields =>
      exact refusesUnless_readTypeFields (Value.canShowFields_iff.mp canShow) id
  | null | bool | int | float | text | bytes | list | struct =>
      refine .refused rfl rfl ?_
      rintro ⟨fields, misshapen⟩
      cases misshapen.isObject

/-- Nothing is wrong with the kind of a table of types that is empty. -/
theorem not_misshapenTypes
    (isEmpty : value.truthy = false) :
    ¬ MisshapenTypes (some value) := by
  intro misshapen
  cases misshapen with
  | kind isGiven =>
      exact absurd (isEmpty.symm.trans isGiven) Bool.false_ne_true
  | @entry entries comesUpon =>
      cases comesUpon <;> cases isEmpty

/-- The table of types is read from an object, or it is empty. -/
theorem refusesUnless_readTypes
    {part : Option Value}
    (canShow : ∀ value ∈ part, value.canShow) :
    RefusesUnless (readTypes part) (MisshapenTypes part) := by
  cases part with
  | none =>
      exact .ok rfl nofun
  | some value =>
      have shown := canShow value rfl
      by_cases isGiven : value.truthy
      · have isFound : (some value).filter Value.truthy = some value :=
          Option.filter_some_pos isGiven
        unfold readTypes
        rw [isFound]
        cases value with
        | record entries =>
            have fieldsShown := Value.canShowFields_iff.mp shown
            have areRead :=
              RefusesUnless.mapM fun entry isEntry =>
                refusesUnless_readType (fieldsShown entry isEntry)
            refine areRead.congr ⟨.entry, fun misshapen => ?_⟩
            cases misshapen with
            | kind _ noObject =>
                exact absurd ⟨entries, rfl⟩ noObject
            | entry comesUpon =>
                exact comesUpon
        | null | bool | int | float | text | bytes | list | struct =>
            exact .misshapen rfl (.kind isGiven (by simp [IsObject]))
      · have isEmpty : value.truthy = false := Bool.not_eq_true _ ▸ isGiven
        have noTypes : readTypes (some value) = .ok [] := by
          unfold readTypes
          rw [Option.filter_some_neg isEmpty]
        exact .ok noTypes (not_misshapenTypes isEmpty)

/-- Nothing is wrong with the kind of a list of variables that is empty. -/
theorem not_misshapenVariables
    (isEmpty : value.truthy = false) :
    ¬ MisshapenVariables value := by
  intro misshapen
  cases misshapen with
  | kind isGiven =>
      exact absurd (isEmpty.symm.trans isGiven) Bool.false_ne_true
  | @entry entries comesUpon =>
      cases comesUpon <;> cases isEmpty

/-- The variables are read from a list of objects, or there are none. -/
theorem refusesUnless_readVariables
    (canShow : value.canShow) :
    RefusesUnless (readVariables value) (MisshapenVariables value) := by
  by_cases isGiven : value.truthy
  · unfold readVariables
    rw [isGiven]
    cases value with
    | list entries =>
        have itemsShown := Value.canShowItems_iff.mp canShow
        have areRead :=
          RefusesUnless.mapM fun entry isEntry =>
            @refusesUnless_readEntry entry .variablePartMissing (fun _ => rfl)
              (itemsShown entry isEntry) "" .variableEntry
        refine areRead.congr ⟨.entry, fun misshapen => ?_⟩
        cases misshapen with
        | kind _ noList =>
            exact absurd rfl (noList entries)
        | entry comesUpon =>
            exact comesUpon
    | null | bool | int | float | text | bytes | record | struct =>
        exact .misshapen rfl (.kind isGiven (by simp))
  · have isEmpty : value.truthy = false := Bool.not_eq_true _ ▸ isGiven
    have noVariables : readVariables value = .ok [] := by
      unfold readVariables
      rw [isEmpty]
      rfl
    exact .ok noVariables (not_misshapenVariables isEmpty)

/-- The fields of a report can be shown, wherever they stand. -/
theorem canShow_unwrap
    {outer : List (String × Value)}
    (canShow : ∀ field ∈ outer, field.2.canShow) :
    ∀ field ∈ unwrap outer, field.2.canShow := by
  unfold unwrap
  split
  · next inner _ isWrapped =>
      exact Value.canShowFields_iff.mp (canShow_of_field? canShow isWrapped)
  · exact canShow

/-- The labels of variables are accepted if things can be looked up by them. -/
theorem refusesUnless_labels
    (types : List TypeEntry)
    (stateVariables : List Variable) :
    RefusesUnless
      (if stateVariables.all fun entry => entry.label.isLabel then
          pure { stateVariables, types }
        else
          .error (.misuse (.partOfWrongKind .variableLabel)) :
            Except Fault Layout)
      (∃ entry ∈ stateVariables, entry.label.isLabel = false) := by
  split
  · next areLabels =>
      exact .ok rfl (by simpa using areLabels)
  · next notAll =>
      exact .misshapen rfl (by simpa using notAll)

/--
A report is loaded, or refused as malformed with a message, unless the first
thing that is wrong with it is the kind of a part.
-/
theorem refusesUnless_ofReport
    (canShow : value.canShow) :
    RefusesUnless (ofReport value) (Misshapen value) := by
  cases value with
  | record outer =>
      have fieldsShown := canShow_unwrap (Value.canShowFields_iff.mp canShow)
      unfold ofReport
      dsimp only
      cases isStorage : Value.field? (unwrap outer) "storage" with
      | none =>
          refine .refused rfl rfl fun misshapen => ?_
          cases misshapen with
          | types hasStorage =>
              simp [isStorage] at hasStorage
          | stateVariables hasStorage | label hasStorage =>
              simp [isStorage] at hasStorage
      | some storage =>
          have typesRead :=
            @refusesUnless_readTypes
              (Value.field? (unwrap outer) "types") fun value isPart =>
              canShow_of_field? fieldsShown isPart
          have variablesRead :=
            refusesUnless_readVariables
              (canShow_of_field? fieldsShown isStorage)
          refine RefusesUnless.congr
            (typesRead.bind fun types _ =>
              variablesRead.bind fun stateVariables _ =>
                refusesUnless_labels types stateVariables) ?_
          constructor
          · rintro (misshapen | ⟨types, areTypes,
              misshapen | ⟨stateVariables, areVariables, entry,
              isVariable, noLabel⟩⟩)
            · exact .types (by simp [isStorage]) misshapen
            · exact .stateVariables isStorage areTypes misshapen
            · exact .label isStorage areTypes areVariables isVariable noLabel
          · intro misshapen
            cases misshapen with
            | types _ misshapen =>
                exact .inl misshapen
            | @stateVariables _ _ types hasStorage areTypes misshapen =>
                obtain rfl := Option.some.inj (isStorage.symm.trans hasStorage)
                exact .inr ⟨types, areTypes, .inl misshapen⟩
            | @label _ _ types stateVariables hasStorage areTypes areVariables
              entry isVariable
                noLabel =>
                obtain rfl := Option.some.inj (isStorage.symm.trans hasStorage)
                exact .inr ⟨types, areTypes,
                  .inr ⟨stateVariables, areVariables, entry, isVariable,
                  noLabel⟩⟩
  | null | bool | int | float | text | bytes | list | struct =>
      exact .refused rfl rfl nofun

end Layout

end EvmStorage
