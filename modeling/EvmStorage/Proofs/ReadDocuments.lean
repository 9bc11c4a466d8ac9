import EvmStorage.Json.Reader
import EvmStorage.Proofs.Decimal
import EvmStorage.Proofs.Outcome

namespace EvmStorage

/-!
# Numbers in documents

If a document is read, none of its integers is too long, and all of them can be
written again.  So the messages about a part of a document can be written,
whatever the part is.
-/

namespace Value

variable {value : Value} {items : List Value} {fields : List (String × Value)}

@[simp]
theorem canShowItems_iff :
    canShowItems items = true ↔ ∀ item ∈ items, item.canShow = true := by
  induction items with
  | nil =>
      simp [canShowItems]
  | cons item rest inductionHypothesis =>
      simp [canShowItems, inductionHypothesis]

@[simp]
theorem canShowFields_iff :
    canShowFields fields = true ↔ ∀ field ∈ fields, field.2.canShow = true := by
  induction fields with
  | nil =>
      simp [canShowFields]
  | cons field rest inductionHypothesis =>
      simp [canShowFields, inductionHypothesis]

/-- A field that is there after one is set is this one or was there before. -/
theorem mem_setField
    {name : String}
    {field : String × Value}
    (isIn : field ∈ setField name value fields) :
    field = (name, value) ∨ field ∈ fields := by
  induction fields with
  | nil =>
      exact .inl (List.mem_singleton.mp isIn)
  | cons first rest inductionHypothesis =>
      rw [setField] at isIn
      split at isIn
      · rcases List.mem_cons.mp isIn with rfl | inRest
        · exact .inl rfl
        · exact .inr (List.mem_cons_of_mem _ inRest)
      · rcases List.mem_cons.mp isIn with rfl | inRest
        · exact .inr List.mem_cons_self
        · exact (inductionHypothesis inRest).imp_right (List.mem_cons_of_mem _)

/-- The value of a field is that of one of the fields of its name. -/
theorem mem_of_field?
    {name : String}
    (found : field? fields name = some value) :
    (name, value) ∈ fields := by
  induction fields with
  | nil =>
      cases found
  | cons first rest inductionHypothesis =>
      obtain ⟨other, old⟩ := first
      rw [field?, List.lookup_cons] at found
      split at found
      · next isName =>
          rw [beq_iff_eq] at isName
          rw [isName, Option.some.inj found]
          exact List.mem_cons_self
      · exact List.mem_cons_of_mem _ (inductionHypothesis found)

end Value

namespace Json

variable {s rest : List Char} {value : Value}

/--
The number that so many digits write is below the power of ten of their number.
-/
theorem natOf_lt
    {digits : List Char}
    (areDigits : ∀ c ∈ digits, isDigit c) :
    natOf digits < 10 ^ digits.length := by
  have areSmall : ∀ digit ∈ digits.map fun c =>
      c.toNat - '0'.toNat, digit < 10 := by
    intro digit isIn
    obtain ⟨c, isChar, rfl⟩ := List.mem_map.mp isIn
    have bounds := areDigits c isChar
    simp only [isDigit, Bool.and_eq_true, decide_eq_true_eq, Char.le_def,
      UInt32.le_iff_toNat_le] at bounds
    have isZero : '0'.val.toNat = 48 := rfl
    have isNine : '9'.val.toNat = 57 := rfl
    have isNat : c.toNat = c.val.toNat := rfl
    have zeroNat : '0'.toNat = 48 := rfl
    omega
  have bounded := Numeral.ofDigits_lt areSmall
  rwa [List.length_map] at bounded

/-- The digits before the point are digits. -/
theorem isDigit_of_scanWhole?
    {whole : List Char}
    (found : scanWhole? s = some (whole, rest)) :
    ∀ c ∈ whole, isDigit c := by
  unfold scanWhole? at found
  split at found
  · cases found
    intro c isIn
    rw [List.mem_singleton.mp isIn]
    decide
  · next c behind _ =>
      split at found
      · next isFirst =>
          cases found
          exact List.forall_mem_cons.mpr ⟨isFirst,
            fun _ isIn => List.mem_takeWhile_imp isIn⟩
      · cases found
  · cases found

/-- A number that is read can be shown. -/
theorem canShow_of_readNumber
    {negative : Bool}
    (isRead : readNumber negative s = .ok (value, rest)) :
    value.canShow := by
  unfold readNumber at isRead
  split at isRead
  · cases isRead
  · next whole behindWhole isWhole =>
      dsimp only at isRead
      split at isRead
      · split at isRead
        · next short =>
            cases isRead
            have below : natOf whole < 10 ^ Numeral.maxDecimalDigits :=
              (natOf_lt (isDigit_of_scanWhole? isWhole)).trans_le
                (Nat.pow_le_pow_right (by decide) short)
            rw [← Value.writableBound_eq] at below
            cases negative <;>
              simpa [Value.canShow, Value.canWriteInt] using below
        · cases isRead
      · cases isRead
        rfl

theorem canShow_of_readWord?
    (found : readWord? s = some (value, rest)) :
    value.canShow := by
  obtain ⟨⟨word, other⟩, isWord, isFound⟩ :=
    List.exists_of_findSome?_eq_some found
  obtain ⟨behind, -, isOther⟩ := Option.map_eq_some_iff.mp isFound
  obtain rfl : other = value := (Prod.mk.inj isOther).1
  have areShown : ∀ entry ∈ words, entry.2.canShow := by
    decide
  exact areShown _ isWord

theorem canShow_of_readAtom
    (isRead : readAtom s = .ok (value, rest)) :
    value.canShow := by
  unfold readAtom at isRead
  split at isRead
  · next found isFound =>
      cases isRead
      exact canShow_of_readWord? isFound
  · split at isRead <;> exact canShow_of_readNumber isRead

section Steps

variable {levels steps : Nat}

/-- A value can be shown if the items and fields read in fewer steps can. -/
theorem canShow_of_readValue_succ
    (itemsShown :
      ∀ levels s items rest,
        readItems levels steps s = .ok (items, rest) →
        ∀ item ∈ items, item.canShow)
    (fieldsShown :
      ∀ levels s fields rest,
        readFields levels steps [] s = .ok (fields, rest) →
        ∀ field ∈ fields, field.2.canShow)
    (isRead : readValue levels (steps + 1) s = .ok (value, rest)) :
    value.canShow := by
  unfold readValue at isRead
  split at isRead
  · obtain ⟨⟨content, behind⟩, -, isRead⟩ := Outcome.bind_eq_ok_iff.mp isRead
    cases isRead
    rfl
  · obtain ⟨fewer, -, isRead⟩ := Outcome.bind_eq_ok_iff.mp isRead
    dsimp only at isRead
    split at isRead
    · cases isRead
      rfl
    · obtain ⟨⟨items, behind⟩, areItems, isRead⟩ :=
        Outcome.bind_eq_ok_iff.mp isRead
      cases isRead
      exact Value.canShowItems_iff.mpr (itemsShown _ _ _ _ areItems)
  · obtain ⟨fewer, -, isRead⟩ := Outcome.bind_eq_ok_iff.mp isRead
    dsimp only at isRead
    split at isRead
    · cases isRead
      rfl
    · obtain ⟨⟨fields, behind⟩, areFields, isRead⟩ :=
        Outcome.bind_eq_ok_iff.mp isRead
      cases isRead
      exact Value.canShowFields_iff.mpr (fieldsShown _ _ _ _ areFields)
  · exact canShow_of_readAtom isRead

/-- Items can be shown if the value and the items read in fewer steps can. -/
theorem canShow_of_readItems_succ
    {items : List Value}
    (valueShown :
      ∀ s value rest,
        readValue levels steps s = .ok (value, rest) → value.canShow)
    (itemsShown :
      ∀ s items rest,
        readItems levels steps s = .ok (items, rest) →
        ∀ item ∈ items, item.canShow)
    (isRead : readItems levels (steps + 1) s = .ok (items, rest)) :
    ∀ item ∈ items, item.canShow := by
  unfold readItems at isRead
  obtain ⟨⟨item, behindItem⟩, isItem, isRead⟩ :=
    Outcome.bind_eq_ok_iff.mp isRead
  have itemShown := valueShown _ _ _ isItem
  dsimp only at isRead
  split at isRead
  · cases isRead
    simpa using itemShown
  · obtain ⟨⟨others, behind⟩, areOthers, isRead⟩ :=
      Outcome.bind_eq_ok_iff.mp isRead
    cases isRead
    exact List.forall_mem_cons.mpr ⟨itemShown, itemsShown _ _ _ areOthers⟩
  · cases isRead

/--
Fields can be shown if those before can, and the value and the fields read in
fewer steps.
-/
theorem canShow_of_readFields_succ
    {before fields : List (String × Value)}
    (valueShown :
      ∀ s value rest,
        readValue levels steps s = .ok (value, rest) → value.canShow)
    (fieldsShown :
      ∀ before s fields rest,
        (∀ field ∈ before, field.2.canShow) →
        readFields levels steps before s = .ok (fields, rest) →
        ∀ field ∈ fields, field.2.canShow)
    (beforeShown : ∀ field ∈ before, field.2.canShow)
    (isRead : readFields levels (steps + 1) before s = .ok (fields, rest)) :
    ∀ field ∈ fields, field.2.canShow := by
  unfold readFields at isRead
  split at isRead
  · obtain ⟨⟨name, behindName⟩, -, isRead⟩ := Outcome.bind_eq_ok_iff.mp isRead
    dsimp only at isRead
    split at isRead
    · obtain ⟨⟨value, behindValue⟩, isValue, isRead⟩ :=
        Outcome.bind_eq_ok_iff.mp isRead
      have nextShown :
          ∀ field ∈ Value.setField name value before, field.2.canShow := by
        intro field isIn
        rcases Value.mem_setField isIn with rfl | wasThere
        · exact valueShown _ _ _ isValue
        · exact beforeShown field wasThere
      dsimp only at isRead
      split at isRead
      · cases isRead
        exact nextShown
      · exact fieldsShown _ _ _ _ nextShown isRead
      · cases isRead
    · cases isRead
  · cases isRead

end Steps

/--
What is read at the beginning of a text can be shown.

The induction is on the number of steps, for values, items and fields at once.
-/
theorem canShow_of_steps (steps : Nat) :
    (∀ levels s value rest,
        readValue levels steps s = .ok (value, rest) → value.canShow) ∧
      (∀ levels s items rest,
        readItems levels steps s = .ok (items, rest) →
        ∀ item ∈ items, item.canShow) ∧
      (∀ levels before s fields rest,
        (∀ field ∈ before, field.2.canShow) →
        readFields levels steps before s = .ok (fields, rest) →
        ∀ field ∈ fields, field.2.canShow) := by
  induction steps with
  | zero =>
      exact ⟨nofun, nofun, nofun⟩
  | succ steps inductionHypothesis =>
      obtain ⟨valueShown, itemsShown, fieldsShown⟩ := inductionHypothesis
      exact
        ⟨fun _ _ _ _ =>
            canShow_of_readValue_succ itemsShown
              fun levels s fields rest =>
                fieldsShown levels [] s fields rest nofun,
          fun levels _ _ _ =>
            canShow_of_readItems_succ (valueShown levels) (itemsShown levels),
          fun levels _ _ _ _ =>
            canShow_of_readFields_succ (valueShown levels) (fieldsShown levels)⟩

/-- A document that is read can be shown. -/
theorem canShow_of_readWithin
    {levels : Nat}
    {document : String}
    (isRead : readWithin levels document = .ok value) :
    value.canShow := by
  unfold readWithin at isRead
  obtain ⟨⟨found, behind⟩, isFound, isRead⟩ := Outcome.bind_eq_ok_iff.mp isRead
  dsimp only at isRead
  split at isRead
  · cases isRead
    exact (canShow_of_steps _).1 _ _ _ _ isFound
  · cases isRead

end Json

end EvmStorage
