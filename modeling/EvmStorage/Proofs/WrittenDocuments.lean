import EvmStorage.Proofs.SameDocuments
import EvmStorage.Proofs.WrittenAtoms

namespace EvmStorage.Json

/-!
# Reading documents that were written

A document that is written in its canonical text is read back from it, with the
names of its objects in order.  So the text tells the document, up to the order
of names, and documents have one text exactly if they are the same.
-/

/-- The characters with which the texts of documents begin. -/
def openings : List Char :=
  "ntf-0123456789\"[\x7b".toList

/--
Nothing is skipped in front of a document, and no list or object ends there.
-/
theorem openings_facts :
    ∀ c ∈ openings, isBlank c = false ∧ c ≠ ']' ∧ c ≠ '\x7d' :=
  List.forall_iff_forall_mem.mp (by decide +kernel)

mutual

/-- How many lists and objects lie in one another in a document. -/
def depth : Value → Nat
  | .list items => depthOfItems items + 1
  | .record fields => depthOfFields fields + 1
  | _ => 0

/-- How many lists and objects lie in one another in the items of a list. -/
def depthOfItems : List Value → Nat
  | [] => 0
  | item :: rest => max (depth item) (depthOfItems rest)

/-- How many lists and objects lie in one another in the fields of an object. -/
def depthOfFields : List (String × Value) → Nat
  | [] => 0
  | (_, value) :: rest => max (depth value) (depthOfFields rest)

end

variable {value : Value} {rest : List Char} {levels : Nat}

/-- The levels inside a list or an object are one fewer. -/
theorem inside_succ (levels : Nat) :
    inside (levels + 1) = .ok levels :=
  rfl

/-- An item is not deeper than all items of its list. -/
theorem depth_le_of_item
    {items : List Value}
    (isItem : value ∈ items) :
    depth value ≤ depthOfItems items := by
  induction items with
  | nil =>
      cases isItem
  | cons first others inductionHypothesis =>
      rw [depthOfItems]
      rcases List.mem_cons.mp isItem with rfl | isOther
      · exact le_max_left _ _
      · exact (inductionHypothesis isOther).trans (le_max_right _ _)

/-- The value of a field is not deeper than all fields of its object. -/
theorem depth_le_of_field
    {field : String × Value}
    {fields : List (String × Value)}
    (isField : field ∈ fields) :
    depth field.2 ≤ depthOfFields fields := by
  induction fields with
  | nil =>
      cases isField
  | cons first others inductionHypothesis =>
      rw [depthOfFields]
      rcases List.mem_cons.mp isField with rfl | isOther
      · exact le_max_left _ _
      · exact (inductionHypothesis isOther).trans (le_max_right _ _)

/--
Whether a value is read back from its text, in as many steps as the text has
characters.
-/
structure ReadsBack
    (levels : Nat)
    (value : Value) :
    Prop where
  opens : ∃ first behind,
    (write value).toList = first :: behind ∧ first ∈ openings
  isRead :
    ∀ steps rest,
      (write value).toList.length ≤ steps →
        Follows rest →
          readValue levels steps ((write value).toList ++ rest) =
            .ok (inOrder value, rest)

section Lists

/-- The texts of some parts, with a comma and a space between them. -/
def joined (texts : List String) : List Char :=
  [',', ' '].intercalate (texts.map String.toList)

theorem toList_intercalate_comma (texts : List String) :
    (String.intercalate ", " texts).toList = joined texts := by
  rw [String.toList_intercalate]
  rfl

theorem joined_singleton (text : String) : joined [text] = text.toList := by
  simp [joined]

theorem joined_cons_cons
    (text next : String)
    (texts : List String) :
    joined (text :: next :: texts) =
      text.toList ++ ',' :: ' ' :: joined (next :: texts) := by
  simp [joined]

/-- Nothing is skipped in front of what is not blank. -/
theorem skipBlanks_of_notBlank
    {c : Char}
    (notBlank : isBlank c = false) :
    skipBlanks (c :: rest) = c :: rest := by
  simp [skipBlanks, notBlank]

/-- Nothing is skipped in front of what opens a document. -/
theorem skipBlanks_cons
    {first : Char}
    {behind : List Char}
    (isOpening : first ∈ openings) :
    skipBlanks (first :: behind) = first :: behind :=
  skipBlanks_of_notBlank (openings_facts first isOpening).1

theorem follows_cons
    {c : Char}
    (isEnd : c ∈ [',', ']', '\x7d']) :
    Follows (c :: rest) := by
  rintro _ ⟨⟩
  exact isEnd

/--
Parts that are put together begin with the first character of the first one.
-/
theorem exists_first_joined
    {text : String}
    {texts : List String}
    {characters : List Char}
    (opens :
      ∃ first behind, text.toList = first :: behind ∧ first ∈ characters) :
    ∃ first behind,
      joined (text :: texts) = first :: behind ∧ first ∈ characters := by
  obtain ⟨first, behind, isText, isFirst⟩ := opens
  cases texts with
  | nil =>
      exact ⟨first, behind, by rw [joined_singleton, isText], isFirst⟩
  | cons next texts =>
      refine ⟨first, behind ++ ',' :: ' ' :: joined (next :: texts),
        ?_, isFirst⟩
      rw [joined_cons_cons, isText, List.cons_append]

/--
Items are read up to the bracket behind them, if each of them is read back.
-/
theorem readItems_joined
    {item : Value}
    {items : List Value}
    {steps : Nat}
    (readBack : ∀ other ∈ item :: items, ReadsBack levels other)
    (enough : (joined ((item :: items).map write)).length < steps) :
    readItems levels steps (joined ((item :: items).map write) ++ ']' :: rest) =
      .ok ((item :: items).map inOrder, rest) := by
  induction items generalizing item steps with
  | nil =>
      obtain ⟨steps, rfl⟩ :=
        Nat.exists_eq_add_one_of_ne_zero (Nat.ne_zero_of_lt enough)
      rw [List.map_singleton, joined_singleton] at enough ⊢
      have isItem :=
        (readBack item List.mem_cons_self).isRead steps (']' :: rest)
        (Nat.le_of_lt_succ enough) (follows_cons (by simp))
      rw [readItems, isItem]
      rfl
  | cons next items inductionHypothesis =>
      obtain ⟨steps, rfl⟩ :=
        Nat.exists_eq_add_one_of_ne_zero (Nat.ne_zero_of_lt enough)
      obtain ⟨itemReadsBack, othersReadBack⟩ := List.forall_mem_cons.mp readBack
      rw [List.map_cons, List.map_cons, joined_cons_cons, ← List.map_cons]
        at enough
      simp only [List.length_append, List.length_cons] at enough
      have isItem := itemReadsBack.isRead steps
        (',' :: ' ' :: joined ((next :: items).map write) ++ ']' :: rest)
        (by omega)
        (follows_cons (by simp))
      have areOthers :=
        @inductionHypothesis next steps othersReadBack (by omega)
      have skipped :
          skipBlanks (' ' :: joined ((next :: items).map write) ++
              ']' :: rest) =
            joined ((next :: items).map write) ++ ']' :: rest := by
        obtain ⟨first, behind, isText, isOpening⟩ :=
          @exists_first_joined (write next) (items.map write) openings
            (othersReadBack next List.mem_cons_self).opens
        rw [List.map_cons, isText]
        exact skipBlanks_cons isOpening
      have isText :
          joined ((item :: next :: items).map write) ++ ']' :: rest =
            (write item).toList ++
              (',' :: ' ' :: joined ((next :: items).map write) ++
                ']' :: rest) := by
        simp [joined_cons_cons]
      rw [isText, readItems, isItem]
      simp only [List.cons_append] at skipped
      simp only [Outcome.ok_bind, List.cons_append,
        skipBlanks_of_notBlank (c := ',') rfl, skipped, areOthers]
      rfl

end Lists

section Objects

/-- The text of a field: its name, and its value behind a colon. -/
def fieldText (field : String × Value) : String :=
  writeString field.1 ++ ": " ++ write field.2

theorem toList_fieldText (field : String × Value) :
    (fieldText field).toList =
      '"' :: (field.1.toList.flatMap writeChar ++
        '"' :: ':' :: ' ' :: (write field.2).toList) := by
  simp [fieldText, toList_writeString]

/-- A field whose name is not there yet is put behind the others. -/
theorem setField_of_not_mem
    {name : String}
    {fields : List (String × Value)}
    (isNew : name ∉ fields.map Prod.fst) :
    Value.setField name value fields = fields ++ [(name, value)] := by
  induction fields with
  | nil =>
      rfl
  | cons field fields inductionHypothesis =>
      rw [List.map_cons, List.mem_cons, not_or] at isNew
      rw [Value.setField, if_neg (Ne.symm isNew.1), inductionHypothesis isNew.2,
        List.cons_append]

/--
The name and the value of a field are read from its text, in front of a comma
or the end.
-/
theorem readFields_fieldText
    {field : String × Value}
    {before : List (String × Value)}
    {steps : Nat}
    {behind : List Char}
    (readsBack : ReadsBack levels field.2)
    (isNew : field.1 ∉ before.map Prod.fst)
    (enough : (fieldText field).toList.length < steps + 1)
    (follows : Follows behind) :
    (∀ rest, behind = '\x7d' :: rest →
        readFields levels (steps + 1) before
          ((fieldText field).toList ++ behind) =
          .ok (before ++ [(field.1, inOrder field.2)], rest)) ∧
      ∀ rest, behind = ',' :: rest →
        readFields levels (steps + 1) before
          ((fieldText field).toList ++ behind) =
          readFields levels steps (before ++ [(field.1, inOrder field.2)])
            (skipBlanks rest) := by
  have isText :
      (fieldText field).toList ++ behind =
        '"' :: (field.1.toList.flatMap writeChar ++
          '"' :: ':' :: ' ' :: ((write field.2).toList ++ behind)) := by
    simp [toList_fieldText]
  have isValue : readValue levels steps ((write field.2).toList ++ behind) =
      .ok (inOrder field.2, behind) := by
    refine readsBack.isRead steps behind ?_ follows
    simp only [toList_fieldText, List.length_cons, List.length_append] at enough
    omega
  have skipped :
      skipBlanks (' ' :: ((write field.2).toList ++ behind)) =
        (write field.2).toList ++ behind := by
    obtain ⟨first, later, isText, isOpening⟩ := readsBack.opens
    rw [isText]
    exact skipBlanks_cons isOpening
  rw [isText, readFields, readString_flatMap]
  simp only [Outcome.ok_bind, skipBlanks_of_notBlank (c := ':') rfl, skipped,
    isValue, setField_of_not_mem isNew]
  constructor
  · rintro rest rfl
    simp only [skipBlanks_of_notBlank (c := '\x7d') rfl]
    rfl
  · rintro rest rfl
    simp only [skipBlanks_of_notBlank (c := ',') rfl]

/--
Fields are read up to the brace behind them, if each of their values is read
back.
-/
theorem readFields_joined
    {field : String × Value}
    {fields before : List (String × Value)}
    {steps : Nat}
    (readBack : ∀ other ∈ field :: fields, ReadsBack levels other.2)
    (distinct : ((before ++ field :: fields).map Prod.fst).Nodup)
    (enough : (joined ((field :: fields).map fieldText)).length < steps) :
    readFields levels steps before
      (joined ((field :: fields).map fieldText) ++ '\x7d' :: rest) =
      .ok (before ++ (field :: fields).map fun field =>
        (field.1, inOrder field.2), rest) := by
  have isNew : field.1 ∉ before.map Prod.fst := by
    rw [List.map_append, List.nodup_append] at distinct
    exact fun isIn => distinct.2.2 _ isIn _ List.mem_cons_self rfl
  induction fields generalizing field before steps with
  | nil =>
      obtain ⟨steps, rfl⟩ :=
        Nat.exists_eq_add_one_of_ne_zero (Nat.ne_zero_of_lt enough)
      rw [List.map_singleton, joined_singleton] at enough ⊢
      exact (readFields_fieldText
        (readBack field List.mem_cons_self) isNew enough
        (follows_cons (by simp))).1 rest rfl
  | cons next fields inductionHypothesis =>
      obtain ⟨steps, rfl⟩ :=
        Nat.exists_eq_add_one_of_ne_zero (Nat.ne_zero_of_lt enough)
      obtain ⟨valueReadsBack, othersReadBack⟩ :=
        List.forall_mem_cons.mp readBack
      rw [List.map_cons, List.map_cons, joined_cons_cons, ← List.map_cons]
        at enough
      simp only [List.length_append, List.length_cons] at enough
      have nextDistinct :
          ((before ++ [(field.1, inOrder field.2)] ++ next :: fields).map
            Prod.fst).Nodup := by
        simpa using distinct
      have nextIsNew :
          next.1 ∉ (before ++ [(field.1, inOrder field.2)]).map Prod.fst := by
        rw [List.map_append, List.nodup_append] at nextDistinct
        exact fun isIn => nextDistinct.2.2 _ isIn _ List.mem_cons_self rfl
      have areOthers :=
        @inductionHypothesis next (before ++ [(field.1, inOrder field.2)]) steps
          othersReadBack
          nextDistinct (by omega) nextIsNew
      have skipped :
          skipBlanks (' ' :: joined ((next :: fields).map fieldText) ++
            '\x7d' :: rest) =
            joined ((next :: fields).map fieldText) ++ '\x7d' :: rest := by
        obtain ⟨first, behind, isText, isOpening⟩ :=
          @exists_first_joined (fieldText next) (fields.map fieldText) openings
            ⟨'"', _, toList_fieldText next, by decide⟩
        rw [List.map_cons, isText]
        exact skipBlanks_cons isOpening
      have isText :
          joined ((field :: next :: fields).map fieldText) ++ '\x7d' :: rest =
            (fieldText field).toList ++
              (',' :: ' ' :: joined ((next :: fields).map fieldText) ++
                '\x7d' :: rest) := by
        simp [joined_cons_cons]
      have follows :
          Follows (',' :: ' ' :: joined ((next :: fields).map fieldText) ++
            '\x7d' :: rest) :=
        follows_cons (by simp)
      have shorter : (fieldText field).toList.length < steps + 1 := by
        omega
      have isNext :=
        (readFields_fieldText valueReadsBack isNew shorter follows).2
          (' ' :: joined ((next :: fields).map fieldText) ++ '\x7d' :: rest) rfl
      rw [isText, isNext, skipped, areOthers, List.append_assoc]
      rfl

end Objects

section Documents

/-- In front of a text there is at least one step. -/
theorem exists_steps
    {value : Value}
    {steps : Nat}
    (opens :
      ∃ first behind, (write value).toList = first :: behind ∧ first ∈ openings)
    (enough : (write value).toList.length ≤ steps) :
    ∃ fewer, steps = fewer + 1 := by
  obtain ⟨first, behind, isText, -⟩ := opens
  rw [isText, List.length_cons] at enough
  exact Nat.exists_eq_add_one_of_ne_zero (by omega)

theorem readsBack_null : ReadsBack levels .null := by
  have opens :
      ∃ first behind,
        (write .null).toList = first :: behind ∧ first ∈ openings :=
    ⟨'n', "ull".toList, rfl, by decide⟩
  refine ⟨opens, fun steps rest enough _ => ?_⟩
  obtain ⟨steps, rfl⟩ := exists_steps opens enough
  rfl

theorem readsBack_bool (flag : Bool) : ReadsBack levels (.bool flag) := by
  have opens :
      ∃ first behind,
        (write (.bool flag)).toList = first :: behind ∧ first ∈ openings := by
    cases flag with
    | false =>
        exact ⟨'f', "alse".toList, rfl, by decide⟩
    | true =>
        exact ⟨'t', "rue".toList, rfl, by decide⟩
  refine ⟨opens, fun steps rest enough _ => ?_⟩
  obtain ⟨steps, rfl⟩ := exists_steps opens enough
  cases flag <;> rfl

/--
What does not open a text, a list or an object is read as a word or a number.
-/
theorem readValue_eq_readAtom
    {first : Char}
    (opensNone : first ∉ ['"', '[', '\x7b'])
    (behind : List Char)
    (levels steps : Nat) :
    readValue levels (steps + 1) (first :: behind) =
      readAtom (first :: behind) := by
  rw [readValue]
  · rintro _ ⟨⟩
    simp at opensNone
  · rintro _ ⟨⟩
    simp at opensNone
  · rintro _ ⟨⟩
    simp at opensNone

/-- The text of an integer begins with its sign or a digit. -/
theorem exists_first_toString (n : Int) :
    ∃ first behind,
      (toString n).toList = first :: behind ∧ first ∈ "-0123456789".toList := by
  obtain ⟨values, areDigits, notEmpty, areSmall, -⟩ :=
    Numeral.exists_values_of_toDigits (by decide : 1 < 10) n.natAbs
  have areChecked :
      ∀ value < 10, Nat.digitChar value ∈ "-0123456789".toList := by
    decide
  rw [Numeral.toList_toString, areDigits]
  split
  · exact ⟨'-', _, rfl, by decide⟩
  · obtain ⟨value, values, rfl⟩ := List.exists_cons_of_ne_nil notEmpty
    exact ⟨_, _, rfl, areChecked value (areSmall value List.mem_cons_self)⟩

theorem readsBack_int
    {n : Int}
    (canWrite : Value.canWriteInt n) :
    ReadsBack levels (.int n) := by
  have areOpenings :
      ∀ c ∈ "-0123456789".toList, c ∈ openings ∧ c ∉ ['"', '[', '\x7b'] :=
    List.forall_iff_forall_mem.mp (by decide +kernel)
  obtain ⟨first, behind, isText, isFirst⟩ := exists_first_toString n
  obtain ⟨isOpening, opensNone⟩ := areOpenings first isFirst
  have opens :
      ∃ first behind,
        (write (.int n)).toList = first :: behind ∧ first ∈ openings :=
    ⟨first, behind, isText, isOpening⟩
  refine ⟨opens, fun steps rest enough follows => ?_⟩
  obtain ⟨steps, rfl⟩ := exists_steps opens enough
  have isAtom := readAtom_toString canWrite follows
  rw [isText] at isAtom
  rw [write, isText, List.cons_append, readValue_eq_readAtom opensNone]
  exact isAtom

theorem readsBack_text (s : String) : ReadsBack levels (.text s) := by
  have isText :
      (write (.text s)).toList = '"' :: (s.toList.flatMap writeChar ++ ['"']) :=
    toList_writeString s
  have opens :
      ∃ first behind,
        (write (.text s)).toList = first :: behind ∧ first ∈ openings :=
    ⟨'"', _, isText, by decide⟩
  refine ⟨opens, fun steps rest enough _ => ?_⟩
  obtain ⟨steps, rfl⟩ := exists_steps opens enough
  rw [isText, List.cons_append, List.append_assoc, readValue,
    List.singleton_append, readString_flatMap]
  rfl

theorem readsBack_list
    {items : List Value}
    (readBack : ∀ item ∈ items, ReadsBack levels item) :
    ReadsBack (levels + 1) (.list items) := by
  have isText :
      (write (.list items)).toList =
        '[' :: (joined (items.map write) ++ [']']) := by
    rw [write, writeItems_eq_map, String.toList_append, String.toList_append,
      toList_intercalate_comma]
    rfl
  have opens :
      ∃ first behind,
        (write (.list items)).toList = first :: behind ∧ first ∈ openings :=
    ⟨'[', _, isText, by decide⟩
  refine ⟨opens, fun steps rest enough _ => ?_⟩
  obtain ⟨steps, rfl⟩ := exists_steps opens enough
  rw [isText, List.length_cons, List.length_append, List.length_singleton]
    at enough
  rw [isText, List.cons_append, List.append_assoc, List.singleton_append,
    readValue, inOrder, inOrderItems_eq_map]
  cases items with
  | nil =>
      rfl
  | cons item items =>
      have areItems :=
        @readItems_joined rest levels item items steps readBack (by omega)
      obtain ⟨first, behind, isJoined, isOpening⟩ :=
        @exists_first_joined (write item) (items.map write) openings
          (readBack item List.mem_cons_self).opens
      have notEnd := (openings_facts first isOpening).2.1
      rw [List.map_cons, isJoined, List.cons_append] at areItems ⊢
      rw [skipBlanks_cons isOpening]
      split
      · next isEnd =>
          exact absurd (List.cons.inj isEnd).1 notEnd
      · rw [inside_succ, Outcome.ok_bind, areItems]
        rfl

theorem readsBack_record
    {fields : List (String × Value)}
    (distinct : (fields.map Prod.fst).Nodup)
    (readBack : ∀ field ∈ fields, ReadsBack levels field.2) :
    ReadsBack (levels + 1) (.record fields) := by
  have isText :
      (write (.record fields)).toList =
        '\x7b' :: (joined ((byName fields).map fieldText) ++ ['\x7d']) := by
    rw [write_record, ← map_byName, List.map_map, String.toList_append,
      String.toList_append, toList_intercalate_comma]
    rfl
  have opens :
      ∃ first behind,
        (write (.record fields)).toList = first :: behind ∧ first ∈ openings :=
    ⟨'\x7b', _, isText, by decide⟩
  refine ⟨opens, fun steps rest enough _ => ?_⟩
  obtain ⟨steps, rfl⟩ := exists_steps opens enough
  have sortedDistinct : ((byName fields).map Prod.fst).Nodup :=
    ((perm_byName fields).map Prod.fst).nodup_iff.mpr distinct
  have sortedReadBack : ∀ field ∈ byName fields, ReadsBack levels field.2 :=
    fun field isField =>
      readBack field ((perm_byName fields).mem_iff.mp isField)
  rw [isText, List.length_cons, List.length_append, List.length_singleton]
    at enough
  rw [isText, List.cons_append, List.append_assoc, List.singleton_append,
    readValue, inOrder, inOrderFields_eq_map, ← map_byName]
  cases isSorted : byName fields with
  | nil =>
      rfl
  | cons field sorted =>
      rw [isSorted] at sortedDistinct sortedReadBack enough
      have areFields :=
        @readFields_joined rest levels field sorted [] steps sortedReadBack
          sortedDistinct (by omega)
      obtain ⟨first, behind, isJoined, isOpening⟩ :=
        @exists_first_joined (fieldText field) (sorted.map fieldText) openings
          ⟨'"', _, toList_fieldText field, by decide⟩
      have notEnd := (openings_facts first isOpening).2.2
      rw [List.map_cons, isJoined, List.cons_append] at areFields ⊢
      rw [skipBlanks_cons isOpening]
      split
      · next isEnd =>
          exact absurd (List.cons.inj isEnd).1 notEnd
      · rw [inside_succ, Outcome.ok_bind, areFields]
        rfl

/--
A document whose integers are not too long is read back from its text, if its
parts lie in one another no deeper than they may.
-/
theorem readsBack_of_isDocument
    (isDocument : IsDocument value)
    (canShow : value.canShow)
    (shallow : depth value ≤ levels) :
    ReadsBack levels value := by
  induction isDocument generalizing levels with
  | null =>
      exact readsBack_null
  | bool flag =>
      exact readsBack_bool flag
  | int n =>
      exact readsBack_int canShow
  | text s =>
      exact readsBack_text s
  | list areDocuments inductionHypothesis =>
      have areShown := Value.canShowItems_iff.mp canShow
      rw [depth] at shallow
      obtain ⟨fewer, rfl⟩ := Nat.exists_eq_add_one_of_ne_zero
        (Nat.ne_zero_of_lt shallow)
      exact readsBack_list fun item isItem =>
        inductionHypothesis item isItem (areShown item isItem)
          ((depth_le_of_item isItem).trans (Nat.le_of_succ_le_succ shallow))
  | record distinct areDocuments inductionHypothesis =>
      have areShown := Value.canShowFields_iff.mp canShow
      rw [depth] at shallow
      obtain ⟨fewer, rfl⟩ := Nat.exists_eq_add_one_of_ne_zero
        (Nat.ne_zero_of_lt shallow)
      exact readsBack_record distinct fun field isField =>
        inductionHypothesis field isField (areShown field isField)
          ((depth_le_of_field isField).trans (Nat.le_of_succ_le_succ shallow))

/--
A document whose integers are not too long is read back from its text, with the
names of its objects in order, by a reader that goes as deep as its parts lie.
-/
theorem readWithin_write
    (isDocument : IsDocument value)
    (canShow : value.canShow)
    (shallow : depth value ≤ levels) :
    readWithin levels (write value) = .ok (inOrder value) := by
  have readsBack := readsBack_of_isDocument isDocument canShow shallow
  have skipped : skipBlanks (write value).toList = (write value).toList := by
    obtain ⟨first, behind, isText, isOpening⟩ := readsBack.opens
    rw [isText, skipBlanks_cons isOpening]
  have isRead :=
    readsBack.isRead (2 * (write value).toList.length + 1) [] (by omega) nofun
  rw [List.append_nil] at isRead
  simp only [readWithin, skipped, isRead]
  rfl

/-- Documents have one text exactly if they are the same. -/
theorem write_eq_iff
    {other : Value}
    (isDocument : IsDocument value)
    (alsoDocument : IsDocument other)
    (canShow : value.canShow)
    (otherShown : other.canShow) :
    write value = write other ↔ SameDocument value other := by
  refine ⟨fun sameText => ?_,
    fun same => write_eq_of_sameDocument same isDocument alsoDocument⟩
  -- a reader that goes deep enough for both tells them apart
  have isRead :=
    readWithin_write isDocument canShow (le_max_left _ (depth other))
  rw [sameText,
    readWithin_write alsoDocument otherShown (le_max_right _ _)] at isRead
  exact sameDocument_of_inOrder_eq isDocument alsoDocument
    (Except.ok.inj isRead).symm

end Documents

end EvmStorage.Json
