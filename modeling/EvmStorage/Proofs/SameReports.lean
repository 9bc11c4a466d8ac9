import EvmStorage.Layout.Report
import EvmStorage.Proofs.Numerals
import EvmStorage.Proofs.Outcome
import EvmStorage.Proofs.SameTypes
import Mathlib.Data.List.Find
import Mathlib.Data.List.Nodup
import Mathlib.Data.List.Perm.Basic

namespace EvmStorage

/-!
# Reports that say the same

A report may write a number as an integer, in decimal or in hex digits, leave
out an offset of zero, list its types in any order, say more than is read, and
stand alone or in the output of a compiler.  None of this makes a difference:
such reports load together, and what they load as gives the same answers.
-/

namespace Outcome

/--
Whether two computations both fail, or both succeed with results that are
related.
-/
inductive Alike (related : α → β → Prop) :
    Except Fault α → Except Fault β → Prop where
  | ok
      {result : α}
      {other : β}
      (areRelated : related result other) :
      Alike related (.ok result) (.ok other)
  | error (fault other : Fault) : Alike related (.error fault) (.error other)

/--
Steps that agree on the items of two lists in their order have the same
outcome.
-/
theorem mapM_eq_of_forall₂
    {step : α → Except Fault β}
    {items others : List α}
    (agree :
      List.Forall₂ (fun item other => step item = step other) items others) :
    items.mapM step = others.mapM step := by
  induction agree with
  | nil =>
      rfl
  | cons sameFirst _ inductionHypothesis =>
      simp only [List.mapM_cons, sameFirst, inductionHypothesis]

/-- In another order, steps over the same items succeed as well. -/
theorem exists_mapM_of_perm
    {step : α → Except Fault β}
    {items others : List α}
    {results : List β}
    (reordered : items.Perm others)
    (areResults : items.mapM step = .ok results) :
    ∃ found, others.mapM step = .ok found ∧ results.Perm found := by
  rw [mapM_eq_ok_iff] at areResults
  obtain ⟨found, areFound, sameResults⟩ :=
    List.perm_comp_forall₂ reordered.symm areResults
  exact ⟨found, mapM_eq_ok_iff.mpr areFound, sameResults.symm⟩

/--
The order of the items decides about no more than the order of the results.
-/
theorem alike_mapM_of_perm
    {step : α → Except Fault β}
    {items others : List α}
    {related : List β → List β → Prop}
    (reordered : items.Perm others)
    (areRelated :
      ∀ results found,
        items.mapM step = .ok results → results.Perm found →
          related results found) :
    Alike related (items.mapM step) (others.mapM step) := by
  cases areResults : items.mapM step with
  | ok results =>
      obtain ⟨found, areFound, sameResults⟩ :=
        exists_mapM_of_perm reordered areResults
      rw [areFound]
      exact .ok (areRelated results found areResults sameResults)
  | error fault =>
      cases areOthers : others.mapM step with
      | ok found =>
          obtain ⟨results, areAlso, -⟩ :=
            exists_mapM_of_perm reordered.symm areOthers
          cases areResults.symm.trans areAlso
      | error other =>
          exact .error fault other

end Outcome

namespace Layout

open Value (field?)

section Numbers

/--
The integers that the numbers of a report stand for.

A decimal text begins with a zero only if it stands for zero, and is short
enough to be read; a text in hex digits has a mark in front of them.
-/
inductive Denotes : Value → Int → Prop where
  | int (n : Int) : Denotes (.int n) n
  | decimal
      {text : String}
      {digits : List Char}
      {n : Nat}
      (sign : Numeral.Sign)
      (isText : text.toList = sign.chars ++ digits)
      (writes : Numeral.Writes 10 digits n)
      (short : digits.length ≤ Numeral.maxDecimalDigits)
      (noZeros : digits.head? = some '0' → n = 0) :
      Denotes (.text text) (sign.apply n)
  | hex
      {text : String}
      {mark : Char}
      {digits : List Char}
      {n : Nat}
      (sign : Numeral.Sign)
      (isText : text.toList = sign.chars ++ '0' :: mark :: digits)
      (isMark : mark = 'x' ∨ mark = 'X')
      (writes : Numeral.Writes 16 digits n) :
      Denotes (.text text) (sign.apply n)

/--
Whether two parts of a report are the same, or numbers that stand for the same
integer.
-/
inductive SameNumber : Value → Value → Prop where
  | same (value : Value) : SameNumber value value
  | respelled
      {value other : Value}
      {n : Int}
      (denotes : Denotes value n)
      (alsoDenotes : Denotes other n) :
      SameNumber value other

/-- Whether two offsets are the same number, one that is left out being zero. -/
inductive SameOffset : Option Value → Option Value → Prop where
  | given
      {value other : Value}
      (sameNumber : SameNumber value other) :
      SameOffset (some value) (some other)
  | bothMissing : SameOffset none none
  | firstMissing
      {other : Value}
      (isZero : Denotes other 0) :
      SameOffset none (some other)
  | secondMissing
      {value : Value}
      (isZero : Denotes value 0) :
      SameOffset (some value) none

variable {value other : Value} {n : Int}

/-- A number is read as the integer that it stands for. -/
theorem Denotes.readInt_eq
    (denotes : Denotes value n)
    (what : String) :
    readInt value what = .ok n := by
  cases denotes with
  | int =>
      rfl
  | @decimal text digits n sign isText writes short noZeros =>
      have isRead :
          Numeral.read? .marked (sign.chars ++ digits) = some (sign.apply n) :=
        Numeral.read?_of_signed?
          (Numeral.signedChars_facts (writes.mem_keyChars (by decide)))
          (Numeral.signed?_append sign (writes.not_mem (by decide) rfl)
            (writes.not_mem (by decide) rfl)
              (writes.unsigned?_marked_ten short noZeros))
      simp only [readInt, Value.plain, isText, isRead]
  | @hex text mark digits n sign isText isMark writes =>
      obtain ⟨noMinusSign, noPlusSign⟩ := writes.not_mem_marked isMark
      have isRead :
          Numeral.read? .marked (sign.chars ++ '0' :: mark :: digits) =
            some (sign.apply n) :=
        Numeral.read?_of_signed?
          (Numeral.signedChars_facts (writes.mem_keyChars_marked isMark))
          (Numeral.signed?_append sign noMinusSign noPlusSign
            (writes.unsigned?_marked isMark))
      simp only [readInt, Value.plain, isText, isRead]

/--
An integer that is short enough to be read is denoted by its decimal text.
-/
theorem denotes_toString
    {n : Int}
    (canWrite : Value.canWriteInt n) :
    Denotes (.text (toString n)) n := by
  have short := of_decide_eq_true canWrite
  rw [Value.writableBound_eq] at short
  have fewDigits :
      (Nat.toDigits 10 n.natAbs).length ≤ Numeral.maxDecimalDigits :=
    (Nat.length_toDigits_le_iff (by decide) (by decide)).mpr short
  have writes :=
    Numeral.writes_toDigits (by decide : 1 < 10) (by decide) n.natAbs
  have noZeros :
      (Nat.toDigits 10 n.natAbs).head? = some '0' → n.natAbs = 0 := by
    intro isZero
    by_contra notZero
    exact Numeral.head?_toDigits (Nat.pos_of_ne_zero notZero) isZero
  have isText := Numeral.toList_toString n
  split at isText
  · next negative =>
      have isMinus : Numeral.Sign.minus.apply n.natAbs = n := by
        simp only [Numeral.Sign.apply]
        omega
      have denotes := Denotes.decimal .minus isText writes fewDigits noZeros
      rwa [isMinus] at denotes
  · next nonneg =>
      have isNumber : Numeral.Sign.none.apply n.natAbs = n := by
        simp only [Numeral.Sign.apply]
        omega
      have denotes := Denotes.decimal .none isText writes fewDigits noZeros
      rwa [isNumber] at denotes

/-- How a number is written makes no difference. -/
theorem SameNumber.readInt_eq
    (sameNumber : SameNumber value other)
    (what : String) :
    readInt value what = readInt other what := by
  cases sameNumber with
  | same =>
      rfl
  | respelled denotes alsoDenotes =>
      rw [denotes.readInt_eq, alsoDenotes.readInt_eq]

/-- An offset that is left out is read as zero. -/
theorem SameOffset.readInt_eq
    {part otherPart : Option Value}
    (sameOffset : SameOffset part otherPart)
    (what : String) :
    readInt (part.getD (.int 0)) what =
      readInt (otherPart.getD (.int 0)) what := by
  have readZero : readInt (.int 0) what = .ok 0 :=
    rfl
  cases sameOffset with
  | given sameNumber =>
      exact sameNumber.readInt_eq what
  | bothMissing =>
      rfl
  | firstMissing isZero =>
      simp only [Option.getD_none, Option.getD_some, readZero,
        isZero.readInt_eq]
  | secondMissing isZero =>
      simp only [Option.getD_none, Option.getD_some, readZero,
        isZero.readInt_eq]

/-- Zeros in front of a decimal number are refused. -/
example : (readInt (.text "010") "slot").toOption = none := by
  decide

end Numbers

section Parts

/-- Whether two parts are the same, or objects whose fields say the same. -/
inductive SameObject
    (sameFields : List (String × Value) → List (String × Value) → Prop) :
    Value → Value → Prop where
  | same (value : Value) : SameObject sameFields value value
  | fields
      {fields others : List (String × Value)}
      (areSame : sameFields fields others) :
      SameObject sameFields (.record fields) (.record others)

/--
Whether the fields of two variables say the same; what is not read may differ.
-/
structure SameVariable (fields others : List (String × Value)) : Prop where
  label : field? fields "label" = field? others "label"
  type : field? fields "type" = field? others "type"
  slot : Option.Rel SameNumber (field? fields "slot") (field? others "slot")
  offset : SameOffset (field? fields "offset") (field? others "offset")

/--
Whether two parts are the same, or lists of variables that say the same in one
order.
-/
inductive SameVariables : Value → Value → Prop where
  | same (value : Value) : SameVariables value value
  | list
      {entries others : List Value}
      (areSame : List.Forall₂ (SameObject SameVariable) entries others) :
      SameVariables (.list entries) (.list others)

/--
Whether the fields of two types say the same; what is not read may differ.
-/
structure SameType (fields others : List (String × Value)) : Prop where
  label : field? fields "label" = field? others "label"
  encoding : field? fields "encoding" = field? others "encoding"
  base : field? fields "base" = field? others "base"
  key : field? fields "key" = field? others "key"
  value : field? fields "value" = field? others "value"
  numberOfBytes :
    Option.Rel SameNumber (field? fields "numberOfBytes")
      (field? others "numberOfBytes")
  members : Option.Rel SameVariables (field? fields "members")
    (field? others "members")

/--
Whether two parts are the same, or tables of types that say the same in some
order.

The names of an object are distinct.
-/
inductive SameTable : Value → Value → Prop where
  | same (value : Value) : SameTable value value
  | reordered
      {entries respelled others : List (String × Value)}
      (distinct : (entries.map Prod.fst).Nodup)
      (areSame :
        List.Forall₂
          (fun entry other =>
            entry.1 = other.1 ∧ SameObject SameType entry.2 other.2)
          entries respelled)
      (reordered : respelled.Perm others) :
      SameTable (.record entries) (.record others)

/-- Whether the fields of two reports say the same. -/
structure SameContent (fields others : List (String × Value)) : Prop where
  storage : Option.Rel SameVariables (field? fields "storage")
    (field? others "storage")
  types : Option.Rel SameTable (field? fields "types") (field? others "types")

/--
What a report says: its own fields, or those of the object that it has for a
layout.
-/
inductive Presents : Value → List (String × Value) → Prop where
  | bare
      {fields : List (String × Value)}
      (noWrapper :
        (field? fields "storage").isSome ∨
          ∀ inner, field? fields "storageLayout" ≠ some (.record inner)) :
      Presents (.record fields) fields
  | wrapped
      {outer fields : List (String × Value)}
      (noStorage : field? outer "storage" = none)
      (isInside : field? outer "storageLayout" = some (.record fields)) :
      Presents (.record outer) fields

/-- Whether two reports are the same, or say the same. -/
inductive SameReport : Value → Value → Prop where
  | same (report : Value) : SameReport report report
  | presented
      {report other : Value}
      {fields others : List (String × Value)}
      (presents : Presents report fields)
      (alsoPresents : Presents other others)
      (sameContent : SameContent fields others) :
      SameReport report other

end Parts

section Reading

variable {fields others : List (String × Value)}

/-- A number that both objects have, or none of them, is read the same. -/
theorem require_bind_readInt_eq
    {name : String}
    (sameNumber :
      Option.Rel SameNumber (field? fields name) (field? others name))
    (missing : String → Fault)
    (what : String)
    (next : Int → Except Fault α) :
    (require fields name missing >>= fun value => readInt value what >>= next) =
      require others name missing >>= fun value =>
        readInt value what >>= next := by
  unfold require
  generalize field? fields name = part at sameNumber
  generalize field? others name = otherPart at sameNumber
  cases sameNumber with
  | none =>
      rfl
  | some sameNumber =>
      exact congrArg (· >>= next) (sameNumber.readInt_eq what)

/-- Variables that say the same are read the same. -/
theorem SameVariable.readVariable_eq
    (areSame : SameVariable fields others)
    (owner : String)
    (missing : String → Fault) :
    readVariable owner missing fields = readVariable owner missing others := by
  have sameLabel :
      require fields "label" missing = require others "label" missing := by
    simp only [require, areSame.label]
  have sameType :
      require fields "type" missing = require others "type" missing := by
    simp only [require, areSame.type]
  simp only [readVariable, sameLabel, sameType,
    require_bind_readInt_eq areSame.slot, areSame.offset.readInt_eq]

/-- Lists of variables that say the same are read the same. -/
theorem mapM_readEntry_eq
    {entries others : List Value}
    (areSame : List.Forall₂ (SameObject SameVariable) entries others)
    (owner : String)
    (missing : String → Fault)
    (part : ReportPart) :
    entries.mapM (readEntry owner missing part) =
      others.mapM (readEntry owner missing part) := by
  refine Outcome.mapM_eq_of_forall₂ (areSame.imp fun entry other isSame => ?_)
  cases isSame with
  | same =>
      rfl
  | fields areSame =>
      exact areSame.readVariable_eq owner missing

theorem SameVariables.readMembers_eq
    {part other : Value}
    (areSame : SameVariables part other)
    (id : String) :
    readMembers id part = readMembers id other := by
  cases areSame with
  | same =>
      rfl
  | list areSame =>
      exact mapM_readEntry_eq areSame _ _ _

theorem SameVariables.readVariables_eq
    {part other : Value}
    (areSame : SameVariables part other) :
    readVariables part = readVariables other := by
  cases areSame with
  | same =>
      rfl
  | @list entries others areSame =>
      have sameTruth :
          (Value.list entries).truthy = (Value.list others).truthy := by
        cases areSame <;> rfl
      simp only [readVariables, sameTruth, mapM_readEntry_eq areSame]

/-- Members that say the same are read the same, if there are any. -/
theorem mapM_readMembers_eq
    (areSame :
      Option.Rel SameVariables (field? fields "members")
        (field? others "members"))
    (id : String) :
    (given? fields "members").mapM (readMembers id) =
      (given? others "members").mapM (readMembers id) := by
  unfold given?
  generalize field? fields "members" = part at areSame
  generalize field? others "members" = otherPart at areSame
  cases areSame with
  | none =>
      rfl
  | some areSame =>
      cases areSame with
      | same =>
          rfl
      | list areSame =>
          exact congrArg (Option.some <$> ·)
            ((SameVariables.list areSame).readMembers_eq id)

/-- Types that say the same are read the same. -/
theorem SameType.readTypeFields_eq
    (areSame : SameType fields others)
    (id : String) :
    readTypeFields id fields = readTypeFields id others := by
  have sameParts (missing : String → Fault) :
      require fields "label" missing = require others "label" missing ∧
        require fields "encoding" missing =
          require others "encoding" missing := by
    simp only [require, areSame.label, areSame.encoding, and_self]
  have sameGiven :
      given? fields "base" = given? others "base" ∧
        given? fields "key" = given? others "key" ∧
        given? fields "value" = given? others "value" := by
    simp only [given?, areSame.base, areSame.key, areSame.value, and_self]
  simp only [readTypeFields, sameParts, sameGiven,
    require_bind_readInt_eq areSame.numberOfBytes,
    mapM_readMembers_eq areSame.members]

theorem readType_eq
    {entry other : String × Value}
    (sameId : entry.1 = other.1)
    (isSame : SameObject SameType entry.2 other.2) :
    readType entry = readType other := by
  obtain ⟨id, part⟩ := entry
  obtain ⟨otherId, otherPart⟩ := other
  obtain rfl : id = otherId := sameId
  cases isSame with
  | same =>
      rfl
  | fields areSame =>
      exact areSame.readTypeFields_eq id

/-- A type is found in the table under the name of its entry. -/
theorem id_of_readType
    {entry : String × Value}
    {type : TypeEntry}
    (isRead : readType entry = .ok type) :
    type.id = entry.1 := by
  unfold readType at isRead
  split at isRead
  · simp only [readTypeFields, Outcome.bind_eq_ok_iff] at isRead
    obtain ⟨_, _, _, _, _, _, _, _, _, _, _, _, isRead⟩ := isRead
    split at isRead
    · cases isRead
    · split at isRead
      · cases isRead
      · rw [← Except.ok.inj isRead]
  · cases isRead

/-- The types of a table have the names of its entries. -/
theorem map_id_of_mapM_readType
    {entries : List (String × Value)}
    {types : List TypeEntry}
    (areRead : entries.mapM readType = .ok types) :
    types.map TypeEntry.id = entries.map Prod.fst := by
  have sameNames := Outcome.mapM_eq_ok_iff.mp areRead
  clear areRead
  induction sameNames with
  | nil =>
      rfl
  | cons isRead _ inductionHypothesis =>
      rw [List.map_cons, List.map_cons, id_of_readType isRead,
        inductionHypothesis]

/--
Whether tables have the same types, each of which is found under the same
identifiers.
-/
structure SameTypeList (types others : List TypeEntry) : Prop where
  reordered : types.Perm others
  find?_eq :
    ∀ id : String,
      (types.find? fun type => type.id = id) = others.find? fun type =>
        type.id = id

/--
Types with distinct names are found under the same identifiers in any order.
-/
theorem sameTypeList_of_perm
    {types others : List TypeEntry}
    (distinct : (types.map TypeEntry.id).Nodup)
    (reordered : types.Perm others) :
    SameTypeList types others where
  reordered := reordered
  find?_eq id := by
    refine List.find?_eq_find?_of_perm reordered ?_
    rintro type ⟨isType, hasId⟩ other ⟨isOther, otherHasId⟩
    have sameId : type.id = other.id :=
      (of_decide_eq_true hasId).trans (of_decide_eq_true otherHasId).symm
    exact List.inj_on_of_nodup_map distinct isType isOther sameId

/-- Tables that say the same are read alike. -/
theorem alike_readTypes
    {part other : Option Value}
    (areSame : Option.Rel SameTable part other) :
    Outcome.Alike SameTypeList (readTypes part) (readTypes other) := by
  have sameOutcome (outcome : Except Fault (List TypeEntry)) :
      Outcome.Alike SameTypeList outcome outcome := by
    cases outcome with
    | ok types =>
        exact .ok ⟨.refl types, fun _ => rfl⟩
    | error fault =>
        exact .error fault fault
  cases areSame with
  | none =>
      exact sameOutcome _
  | some areSame =>
      cases areSame with
      | same =>
          exact sameOutcome _
      | @reordered entries respelled others distinct areSame reordered =>
          have isTable (table : List (String × Value)) :
              readTypes (some (.record table)) = table.mapM readType := by
            cases table <;> rfl
          have sameTypes : entries.mapM readType = respelled.mapM readType :=
            Outcome.mapM_eq_of_forall₂
              (areSame.imp fun entry other isSame =>
                readType_eq isSame.1 isSame.2)
          rw [isTable, isTable, sameTypes]
          refine Outcome.alike_mapM_of_perm reordered
            fun types found areTypes sameList => ?_
          rw [← sameTypes] at areTypes
          rw [← map_id_of_mapM_readType areTypes] at distinct
          exact sameTypeList_of_perm distinct sameList

/-- What a report says is what is read of it. -/
theorem Presents.exists_unwrap
    {report : Value}
    (presents : Presents report fields) :
    ∃ outer, report = .record outer ∧ unwrap outer = fields := by
  cases presents with
  | bare noWrapper =>
      refine ⟨fields, rfl, ?_⟩
      unfold unwrap
      split
      · next inner noStorage isInside =>
          rcases noWrapper with isStorage | noWrapper
          · rw [noStorage] at isStorage
            cases isStorage
          · exact absurd isInside (noWrapper inner)
      · rfl
  | @wrapped outer _ noStorage isInside =>
      exact ⟨outer, rfl, by simp only [unwrap, noStorage, isInside]⟩

/-- Whether layouts have equal variables in one order, and the same types. -/
structure SameLayout (layout other : Layout) : Prop where
  stateVariables : layout.stateVariables = other.stateVariables
  types : SameTypeList layout.types other.types

/-- Reports that say the same load alike. -/
theorem SameReport.alike_ofReport
    {report other : Value}
    (sameReport : SameReport report other) :
    Outcome.Alike SameLayout (ofReport report) (ofReport other) := by
  cases sameReport with
  | same =>
      cases ofReport report with
      | ok layout =>
          exact .ok ⟨rfl, .refl layout.types, fun _ => rfl⟩
      | error fault =>
          exact .error fault fault
  | @presented _ fields others presents alsoPresents sameContent =>
      obtain ⟨outer, rfl, isUnwrapped⟩ := presents.exists_unwrap
      obtain ⟨otherOuter, rfl, otherUnwrapped⟩ := alsoPresents.exists_unwrap
      simp only [ofReport, isUnwrapped, otherUnwrapped]
      have alikeTypes := alike_readTypes sameContent.types
      have sameStorage := sameContent.storage
      generalize field? fields "storage" = storage at sameStorage
      generalize field? others "storage" = otherStorage at sameStorage
      cases sameStorage with
      | none =>
          exact .error _ _
      | @some storage otherStorage sameVariables =>
          dsimp only
          rw [sameVariables.readVariables_eq]
          generalize readTypes (field? fields "types") = types at alikeTypes
          generalize readTypes (field? others "types") =
            otherTypes at alikeTypes
          cases alikeTypes with
          | error fault other =>
              exact .error fault other
          | ok sameTypes =>
              cases readVariables otherStorage with
              | error fault =>
                  exact .error fault fault
              | ok stateVariables =>
                  simp only [Outcome.ok_bind]
                  split
                  · exact .ok ⟨rfl, sameTypes⟩
                  · exact .error _ _

/-- Layouts with the same variables and types give the same answers. -/
theorem SameLayout.sameAnswers
    {layout other : Layout}
    (sameLayout : SameLayout layout other) :
    layout.SameAnswers other := by
  have sameTypes : layout.SameTypes other :=
    { find?_eq := sameLayout.types.find?_eq
      length_eq := sameLayout.types.reordered.length_eq }
  exact sameTypes.sameAnswers sameLayout.stateVariables

end Reading

/--
Loading depends only on what a report says: of two reports that say the same,
one loads exactly if the other one does; then their variables are equal in their
order, their tables have the same types, and everything that is looked up, every
step, every path and everything that is read at a cursor is the same.
-/
theorem ofReport_of_sameReport
    {report other : Value}
    (sameReport : SameReport report other) :
    ((∃ layout, ofReport report = .ok layout) ↔ ∃ layout,
      ofReport other = .ok layout) ∧
      ∀ layout otherLayout,
        ofReport report = .ok layout →
          ofReport other = .ok otherLayout →
            layout.stateVariables = otherLayout.stateVariables ∧
              layout.types.Perm otherLayout.types ∧
              layout.SameAnswers otherLayout := by
  have alike := sameReport.alike_ofReport
  generalize ofReport report = loaded at alike
  generalize ofReport other = otherLoaded at alike
  cases alike with
  | @ok layout otherLayout sameLayout =>
      refine ⟨⟨fun _ => ⟨otherLayout, rfl⟩, fun _ => ⟨layout, rfl⟩⟩, ?_⟩
      intro _ _ isLayout isOther
      obtain rfl := Except.ok.inj isLayout
      obtain rfl := Except.ok.inj isOther
      exact ⟨sameLayout.stateVariables, sameLayout.types.reordered,
        sameLayout.sameAnswers⟩
  | error fault other =>
      exact ⟨⟨nofun, nofun⟩, nofun⟩

section Purse

/--
A report of a purse of coins, alone and with integers where it has numbers.
-/
def purseReport : Value :=
  .record [
    ("storage", .list
      [.record [("astId", .int 7), ("label", .text "purse"), ("offset", .int 0),
      ("slot", .int 10), ("type", .text "purse")]]),
    ("types", .record [
      ("coin", .record [("encoding", .text "inplace"),
        ("label", .text "uint128"), ("numberOfBytes", .int 16)]),
      ("purse", .record [("encoding", .text "inplace"),
        ("label", .text "struct Purse"),
        ("members", .list
          [.record [("label", .text "coins"), ("offset", .int 0),
          ("slot", .int 0), ("type", .text "coin")]]),
        ("numberOfBytes", .int 32)])])]

/--
The same report in the output of a compiler, with texts where it has numbers.
-/
def wrappedPurseReport : Value :=
  .record [
    ("compiler", .text "solc"),
    ("storageLayout", .record [
      ("types", .record [
        ("purse", .record [("label", .text "struct Purse"),
          ("encoding", .text "inplace"),
          ("numberOfBytes", .text "32"),
            ("members", .list [.record [("contract", .text "Purse"),
            ("label", .text "coins"), ("slot", .text "-00"),
              ("type", .text "coin")]])]),
        ("coin", .record [("label", .text "uint128"),
          ("encoding", .text "inplace"), ("numberOfBytes", .text "+0x10")])]),
      ("storage", .list
        [.record [("label", .text "purse"), ("slot", .text "0X0a"),
        ("type", .text "purse")]])])]

/-- The texts of the wrapped report stand for the integers of the other one. -/
theorem denotes_purseNumbers :
    Denotes (.text "0X0a") 10 ∧ Denotes (.text "+0x10") 16 ∧
      Denotes (.text "32") 32 ∧
      Denotes (.text "-00") 0 := by
  have ten : Numeral.Writes 16 ['0', 'a'] 10 :=
    @Numeral.Writes.digits 16 _ [0, 10] (by decide) (by decide)
  have sixteen : Numeral.Writes 16 ['1', '0'] 16 :=
    @Numeral.Writes.digits 16 _ [1, 0] (by decide) (by decide)
  have zero : Numeral.Writes 10 ['0', '0'] 0 :=
    @Numeral.Writes.digits 10 _ [0, 0] (by decide) (by decide)
  exact ⟨.hex .none rfl (.inr rfl) ten, .hex .plus rfl (.inl rfl) sixteen,
    @denotes_toString 32 (by decide +kernel),
    .decimal .minus rfl zero (by decide) fun _ => rfl⟩

/-- The two reports of the purse say the same. -/
theorem sameReport_purse : SameReport purseReport wrappedPurseReport := by
  obtain ⟨isTen, isSixteen, isThirtyTwo, isZero⟩ := denotes_purseNumbers
  refine .presented (.bare (.inl rfl)) (.wrapped rfl rfl)
    { storage := ?storage, types := ?types }
  case storage =>
    refine .some (.list (.cons (.fields ?_) .nil))
    exact {
      label := rfl
      type := rfl
      slot := .some (.respelled (.int 10) isTen)
      offset := .secondMissing (.int 0) }
  case types =>
    refine .some (.reordered (by decide) ?_ (.swap _ _ _))
    refine .cons ⟨rfl, .fields ?coin⟩ (.cons ⟨rfl, .fields ?purse⟩ .nil)
    case coin =>
      exact {
        label := rfl, encoding := rfl, base := rfl, key := rfl, value := rfl
        numberOfBytes := .some (.respelled (.int 16) isSixteen)
        members := .none }
    case purse =>
      refine {
        label := rfl, encoding := rfl, base := rfl, key := rfl, value := rfl
        numberOfBytes := .some (.respelled (.int 32) isThirtyTwo)
        members := .some (.list (.cons (.fields ?_) .nil)) }
      exact {
        label := rfl
        type := rfl
        slot := .some (.respelled (.int 0) isZero)
        offset := .secondMissing (.int 0) }

/-- Both reports load, and what they load as gives the same answers. -/
theorem ofReport_of_samePurse :
    SameReport purseReport wrappedPurseReport ∧
      ∃ layout other,
        ofReport purseReport = .ok layout ∧
          ofReport wrappedPurseReport = .ok other ∧
          layout.stateVariables = other.stateVariables ∧
          layout.types.Perm other.types ∧
          layout.SameAnswers other := by
  obtain ⟨loads, sameLayouts⟩ := ofReport_of_sameReport sameReport_purse
  obtain ⟨layout, isLayout⟩ : ∃ layout, ofReport purseReport = .ok layout :=
    ⟨_, rfl⟩
  obtain ⟨other, isOther⟩ := loads.mp ⟨layout, isLayout⟩
  exact ⟨sameReport_purse, layout, other, isLayout, isOther,
    sameLayouts layout other isLayout isOther⟩

end Purse

end Layout

end EvmStorage
