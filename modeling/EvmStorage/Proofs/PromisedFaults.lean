import EvmStorage.Proofs.ArrayElements
import EvmStorage.Proofs.Decodable

namespace EvmStorage

/-!
# Decoding that keeps to the promised faults

A computation keeps its promise if it returns a value or ends with a fault of
one of the families that callers are told of.  Reading a report checks little
of it, so decoding keeps the promise only under conditions: the numbers that
messages show must not be too long, addresses must have twenty bytes, signed
integers a width, and scalars in structs at least one byte.
-/

namespace Fault

/--
A fault is reported if its message can be written and its cause has a family.
-/
theorem isReported_eq (fault : Fault) :
    fault.isReported = (fault.hasMessage && fault.causeFamily?.isSome) := by
  unfold isReported family?
  cases fault.hasMessage <;> simp

@[simp]
theorem isReported_schema (cause : SchemaFault) :
    (Fault.schema cause).isReported = cause.shownValues.all Value.canShow := by
  simp [isReported_eq, hasMessage, shownValues, causeFamily?]

@[simp]
theorem isReported_unsupported (cause : UnsupportedFault) :
    (Fault.unsupported cause).isReported =
      cause.shownValues.all Value.canShow := by
  simp [isReported_eq, hasMessage, shownValues, causeFamily?]

@[simp]
theorem isReported_notFound (cause : NotFoundFault) :
    (Fault.notFound cause).isReported =
      cause.shownValues.all Value.canShow := by
  simp [isReported_eq, hasMessage, shownValues, causeFamily?]

@[simp]
theorem isReported_invalidKey (cause : InvalidKeyFault) :
    (Fault.invalidKey cause).isReported =
      cause.shownValues.all Value.canShow := by
  simp [isReported_eq, hasMessage, shownValues, causeFamily?]

@[simp]
theorem isReported_read (cause : ReadFault) :
    (Fault.read cause).isReported = cause.shownValues.all Value.canShow := by
  simp [isReported_eq, hasMessage, shownValues, causeFamily?]

end Fault

namespace Outcome

/--
Whether a computation returns a value or ends with a fault that is reported.
-/
def isPromised : Except Fault α → Bool
  | .ok _ => true
  | .error fault => fault.isReported

/--
Whether a computation returns a value with a property or ends with a fault that
is reported.
-/
inductive Keeps : Except Fault α → (α → Prop) → Prop where
  | ok
      {result : α}
      {holds : α → Prop}
      (isTrue : holds result) :
      Keeps (.ok result) holds
  | error
      {fault : Fault}
      {holds : α → Prop}
      (isReported : fault.isReported) :
      Keeps (.error fault) holds

namespace Keeps

variable {computation : Except Fault α} {holds between : α → Prop}
  {returned : β → Prop}

theorem isPromised
    (keeps : Keeps computation holds) :
    Outcome.isPromised computation := by
  cases keeps with
  | ok isTrue =>
      rfl
  | error isReported =>
      exact isReported

theorem mono
    (keeps : Keeps computation between)
    (weaker : ∀ result, between result → holds result) :
    Keeps computation holds := by
  cases keeps with
  | ok isTrue =>
      exact .ok (weaker _ isTrue)
  | error isReported =>
      exact .error isReported

/-- What a step returns has the property and is what the step returns. -/
theorem and_eq
    (keeps : Keeps computation holds) :
    Keeps computation fun result =>
      computation = .ok result ∧ holds result := by
  cases keeps with
  | ok isTrue =>
      exact .ok ⟨rfl, isTrue⟩
  | error isReported =>
      exact .error isReported

/-- What a step returns is what the step returns. -/
theorem eq_ok
    (keeps : Keeps computation fun _ => True) :
    Keeps computation fun result => computation = .ok result :=
  keeps.and_eq.mono fun _ => And.left

theorem bind
    {next : α → Except Fault β}
    (first : Keeps computation between)
    (goesOn : ∀ result, between result → Keeps (next result) returned) :
    Keeps (computation >>= next) returned := by
  cases first with
  | ok isTrue =>
      exact goesOn _ isTrue
  | error isReported =>
      exact .error isReported

theorem map
    {change : α → β}
    (keeps : Keeps computation holds)
    (changed : ∀ result, holds result → returned (change result)) :
    Keeps (computation.map change) returned := by
  cases keeps with
  | ok isTrue =>
      exact .ok (changed _ isTrue)
  | error isReported =>
      exact .error isReported

/-- Steps over a list keep the promise together if each of them does. -/
theorem mapM
    {step : α → Except Fault β}
    {items : List α}
    (steps : ∀ item ∈ items, Keeps (step item) fun _ => True) :
    Keeps (items.mapM step) fun _ => True := by
  induction items with
  | nil =>
      exact ok trivial
  | cons item rest inductionHypothesis =>
      obtain ⟨first, others⟩ := List.forall_mem_cons.mp steps
      rw [List.mapM_cons]
      exact first.bind fun _ _ =>
        (inductionHypothesis others).bind fun _ _ => ok trivial

/--
Steps from state to state keep the promise, and what each of them keeps of the
state.
-/
theorem foldlM
    {step : β → α → Except Fault β}
    {items : List α}
    {start : β}
    (starts : returned start)
    (steps :
      ∀ state, returned state → ∀ item ∈ items,
        Keeps (step state item) returned) :
    Keeps (items.foldlM step start) returned := by
  induction items generalizing start with
  | nil =>
      exact ok starts
  | cons item rest inductionHypothesis =>
      rw [List.foldlM_cons]
      refine (steps start starts item List.mem_cons_self).bind
        fun next isNext => ?_
      exact inductionHypothesis isNext fun state holds later inRest =>
        steps state holds later (List.mem_cons_of_mem _ inRest)

end Keeps

end Outcome

open Outcome (Keeps)

/-- Whether a value is a text. -/
def Value.isText : Value → Bool
  | .text _ => true
  | _ => false

/-- A value that is a text is the text of some characters. -/
theorem Value.exists_of_isText
    {value : Value}
    (isText : value.isText) :
    ∃ s, value = .text s := by
  cases value with
  | text s =>
      exact ⟨s, rfl⟩
  | _ =>
      cases isText

/-- Texts can be shown. -/
@[simp]
theorem Value.canShow_text (s : String) :
    (Value.text s).canShow = true := by
  rfl

@[simp]
theorem Value.canShow_int (n : Int) :
    (Value.int n).canShow = canWriteInt n := by
  rfl

/-- A text is the label of an account if decoding takes it for one. -/
theorem TypeEntry.isAccount_text_iff
    {label : String} :
    IsAccount (.text label) ↔
      label = "address" ∨ label = "address payable" ∨
        label.startsWith "contract " := by
  simp only [IsAccount, Value.text.injEq, String.startsWith_string_iff]
  refine or_congr_right (or_congr_right ⟨?_, ?_⟩)
  · rintro ⟨name, rfl⟩
    simp
  · rintro ⟨name, isName⟩
    exact ⟨String.ofList name, by rw [← String.toList_inj]; simp [← isName]⟩

instance (label : Value) : Decidable (TypeEntry.IsAccount label) :=
  match label with
  | .text _ => decidable_of_iff _ TypeEntry.isAccount_text_iff.symm
  | .null | .bool _ | .int _ | .float _ | .bytes _ | .list _ | .record _
  | .struct _ =>
      isFalse (by rintro (⟨⟨⟩⟩ | ⟨⟨⟩⟩ | ⟨_, ⟨⟩⟩))

/-- A bound on the widths whose powers of two can be held. -/
def widthBound : Int :=
  2 ^ 32

/--
Whether the integers that a label says are unsigned, or have a width that can
be used.
-/
def TypeLabel.HasWidth (parts : TypeLabel) : Prop :=
  parts.kind = .int → parts.isUnsigned = false →
    0 < parts.bits ∧ parts.bits < widthBound

instance (parts : TypeLabel) : Decidable parts.HasWidth :=
  inferInstanceAs
    (Decidable
      (parts.kind = .int → parts.isUnsigned = false →
        0 < parts.bits ∧ parts.bits < widthBound))

namespace TypeEntry

/--
Whether the values of a type are scalars of at least one byte that fit into a
slot.
-/
def isSlotScalar (type : TypeEntry) : Bool :=
  type.isScalar && decide (0 < type.size) && decide (type.size ≤ slotSize)

/--
The digits of a label that are read as numbers to find and decode values of its
type.
-/
def numerals (type : TypeEntry) : List (List Char) :=
  if type.isFixedArray then
    (Label.lastDimension? type.label.plain.toList).toList
  else if type.isSlotScalar then
    match Label.parts? type.label.plain with
    | some parts => parts.size :: parts.dimension.toList
    | none => []
  else
    []

end TypeEntry

namespace Layout

/-- Whether all labels and identifiers of a layout are texts. -/
structure Textual (layout : Layout) : Prop where
  stateVariables :
    ∀ entry ∈ layout.stateVariables, entry.label.isText ∧ entry.type.isText
  labels : ∀ type ∈ layout.types, type.label.isText
  references :
    ∀ type ∈ layout.types,
      ∀ id ∈ type.base.toList ++ type.key.toList ++ type.value.toList, id.isText
  members :
    ∀ type ∈ layout.types, ∀ member ∈ type.members.getD [],
      member.label.isText ∧ member.type.isText

/--
Whether the parts of a layout that reading a report leaves unchecked are as
they must be.

Numbers are short enough to be shown or counted with, slots that are hashed
exist, and the sizes and widths of scalars are those that decoding relies on.
-/
structure Regular (layout : Layout) : Prop where
  places :
    ∀ entry ∈ layout.stateVariables,
      Value.canWriteInt entry.slot ∧ Value.canWriteInt entry.offset
  hashable :
    ∀ entry ∈ layout.stateVariables,
      ∀ type, layout.lookup entry.type = .ok type →
        type.isDynamicArray ∨ type.isBytes → inSlotSpace entry.slot
  numerals :
    ∀ type ∈ layout.types, ∀ digits ∈ type.numerals,
      digits.length ≤ Numeral.maxDecimalDigits
  sizes : ∀ type ∈ layout.types, type.size.natAbs < spanBound
  accounts :
    ∀ type ∈ layout.types,
      type.isSlotScalar → TypeEntry.IsAccount type.label → type.size = 20
  widths :
    ∀ type ∈ layout.types, type.isSlotScalar →
      ∀ parts, type.typeLabel none = .ok parts → parts.HasWidth
  members :
    ∀ type ∈ layout.types, ∀ member ∈ type.members.getD [],
      Value.canWriteInt member.offset ∧
        ∀ memberType, layout.lookup member.type = .ok memberType →
          memberType.isScalar → 0 < memberType.size
  fixedArrays :
    ∀ type ∈ layout.types, type.isFixedArray →
      ∀ element, layout.elementOf type = .ok element →
        ∀ length, type.fixedLength = .ok length →
          ∀ span,
            arraySpan length element.size = .ok span → Value.canWriteInt span

instance (layout : Layout) : Decidable layout.Textual :=
  decidable_of_iff
    ((∀ entry ∈ layout.stateVariables, entry.label.isText ∧ entry.type.isText) ∧
      (∀ type ∈ layout.types, type.label.isText) ∧
      (∀ type ∈ layout.types,
        ∀ id ∈ type.base.toList ++ type.key.toList ++ type.value.toList,
          id.isText) ∧
      (∀ type ∈ layout.types, ∀ member ∈ type.members.getD [],
        member.label.isText ∧ member.type.isText))
    ⟨fun ⟨stateVariables, labels, references, members⟩ =>
        { stateVariables, labels, references, members },
      fun textual =>
        ⟨textual.stateVariables, textual.labels, textual.references,
          textual.members⟩⟩

instance (layout : Layout) : Decidable layout.Regular :=
  decidable_of_iff
    ((∀ entry ∈ layout.stateVariables,
        Value.canWriteInt entry.slot ∧ Value.canWriteInt entry.offset) ∧
      (∀ entry ∈ layout.stateVariables,
        ∀ type, layout.lookup entry.type = .ok type →
          type.isDynamicArray ∨ type.isBytes → inSlotSpace entry.slot) ∧
      (∀ type ∈ layout.types, ∀ digits ∈ type.numerals,
        digits.length ≤ Numeral.maxDecimalDigits) ∧
      (∀ type ∈ layout.types, type.size.natAbs < spanBound) ∧
      (∀ type ∈ layout.types,
        type.isSlotScalar → TypeEntry.IsAccount type.label → type.size = 20) ∧
      (∀ type ∈ layout.types, type.isSlotScalar →
        ∀ parts, type.typeLabel none = .ok parts → parts.HasWidth) ∧
      (∀ type ∈ layout.types, ∀ member ∈ type.members.getD [],
        Value.canWriteInt member.offset ∧
          ∀ memberType, layout.lookup member.type = .ok memberType →
            memberType.isScalar → 0 < memberType.size) ∧
      (∀ type ∈ layout.types, type.isFixedArray →
        ∀ element, layout.elementOf type = .ok element →
          ∀ length, type.fixedLength = .ok length →
            ∀ span,
              arraySpan length element.size = .ok span →
                Value.canWriteInt span))
    ⟨fun ⟨places, hashable, numerals, sizes, accounts, widths, members,
      fixedArrays⟩ =>
        { places, hashable, numerals, sizes, accounts, widths, members,
          fixedArrays },
      fun regular =>
        ⟨regular.places, regular.hashable, regular.numerals, regular.sizes,
          regular.accounts,
          regular.widths, regular.members, regular.fixedArrays⟩⟩

end Layout

variable {hash : Digest} {layout : Layout} {type : TypeEntry}

namespace TypeEntry

theorem isSlotScalar_iff :
    type.isSlotScalar ↔
      type.isScalar ∧ 0 < type.size ∧ type.size ≤ slotSize := by
  simp [isSlotScalar, and_assoc]

/-- The length in the label of a fixed array is read as a number. -/
theorem mem_numerals_of_isFixedArray
    {label : String}
    {digits : List Char}
    (isFixedArray : type.isFixedArray)
    (isLabel : type.label = .text label)
    (found : Label.lastDimension? label.toList = some digits) :
    digits ∈ type.numerals := by
  simp [numerals, isFixedArray, isLabel, Value.plain, found]

/-- The width and the dimension in the label of a scalar are read as numbers. -/
theorem numerals_of_isSlotScalar
    {label : String}
    {parts : Label.Parts}
    (isSlotScalar : type.isSlotScalar)
    (isLabel : type.label = .text label)
    (found : Label.parts? label = some parts) :
    type.numerals = parts.size :: parts.dimension.toList := by
  have notArray : type.isFixedArray = false := by
    by_contra isFixedArray
    have notScalar :=
      isScalar_of_isFixedArray (eq_true_of_ne_false isFixedArray)
    simp [TypeEntry.isSlotScalar, notScalar] at isSlotScalar
  simp [numerals, notArray, isSlotScalar, isLabel, Value.plain, found]

end TypeEntry

/-- A size below the bound can be written. -/
theorem canWriteInt_of_lt_spanBound
    {size : Int}
    (bounded : size.natAbs < spanBound) :
    Value.canWriteInt size := by
  have below : spanBound < Value.writableBound := by
    decide +kernel
  simp only [Value.canWriteInt, decide_eq_true_eq]
  exact bounded.trans below

/-- The number of slots of a size is found if the size is below the bound. -/
theorem keeps_slotSpan
    {size : Int}
    (bounded : size.natAbs < spanBound) :
    Keeps (slotSpan size) fun span =>
      slotSpan size = .ok span ∧ (0 < size → 0 < span) := by
  obtain ⟨span, isSpan, positive⟩ := exists_slotSpan_of_natAbs_lt bounded
  rw [isSpan]
  exact .ok ⟨rfl, positive⟩

/-- The offset of an element can be written. -/
theorem canWriteInt_of_elementPlace
    {index size : Int}
    {place : ElementPlace}
    (isPlace : elementPlace index size = .ok place) :
    Value.canWriteInt place.offset := by
  obtain ⟨positive, sameOffset⟩ := offset_of_elementPlace isPlace
  have nonneg := @exactPlace_offset_nonneg index size positive
  have inSlot : (exactPlace index size).offset ≤ 32 := by
    by_cases small : size ≤ slotSize
    · have := @exactPlace_offset_add_le index size positive small
      simp only [slotSize] at this
      omega
    · simp [exactPlace, small]
  rw [sameOffset]
  exact Value.canWriteInt_of_le nonneg (by omega)

/-- An element has a place, unless the elements have no size. -/
theorem keeps_elementPlace
    {index size : Int}
    (nonneg : 0 ≤ index)
    (bounded : size.natAbs < spanBound) :
    Keeps (elementPlace index size) fun place =>
      elementPlace index size = .ok place := by
  refine Keeps.eq_ok ?_
  unfold elementPlace
  split
  · exact .error
      (by simp [SchemaFault.shownValues, canWriteInt_of_lt_spanBound bounded])
  · rw [if_neg (not_lt.mpr nonneg)]
    split
    · exact .ok trivial
    · exact (keeps_slotSpan bounded).bind fun _ _ => .ok trivial

/-- An array has a span, unless its elements have no size. -/
theorem keeps_arraySpan
    {length size : Int}
    (bounded : size.natAbs < spanBound) :
    Keeps (arraySpan length size) fun span =>
      arraySpan length size = .ok span := by
  refine Keeps.eq_ok ?_
  unfold arraySpan
  split
  · exact .ok trivial
  · next notEmpty =>
      refine (keeps_elementPlace (by omega) bounded).bind fun _ _ => ?_
      exact (keeps_slotSpan bounded).bind fun _ _ => .ok trivial

/--
A type that is found by a label is in the table; one that is not found is
reported.
-/
theorem keeps_lookup
    {id : Value}
    (isLabel : id.isLabel)
    (canShow : id.canShow) :
    Keeps (layout.lookup id) fun type => layout.lookup id = .ok type := by
  refine Keeps.eq_ok ?_
  cases id with
  | text name =>
      simp only [Layout.lookup]
      split
      · exact .ok trivial
      · exact .error (by simp [SchemaFault.shownValues])
  | _ =>
      simp only [Layout.lookup, isLabel, ↓reduceIte]
      exact .error (by simp [SchemaFault.shownValues, canShow])

/--
What a type refers to is looked up, or it is reported that it is not there.
-/
theorem keeps_lookup_getD
    {reference : Option Value}
    (areTexts : ∀ id ∈ reference, id.isText) :
    Keeps (layout.lookup (reference.getD .null)) fun type =>
      layout.lookup (reference.getD .null) = .ok type := by
  cases reference with
  | none =>
      exact keeps_lookup rfl rfl
  | some id =>
      obtain ⟨name, isText⟩ := Value.exists_of_isText (areTexts id rfl)
      subst isText
      exact keeps_lookup rfl rfl

namespace Layout.Textual

/-- The label of a type can be shown. -/
theorem canShow_label
    (textual : layout.Textual)
    (inTable : type ∈ layout.types) :
    type.label.canShow := by
  obtain ⟨label, isLabel⟩ :=
    Value.exists_of_isText (textual.labels type inTable)
  rw [isLabel]
  rfl

/-- The type of the elements of an array is looked up. -/
theorem keeps_elementOf
    (textual : layout.Textual)
    (inTable : type ∈ layout.types) :
    Keeps (layout.elementOf type) fun element =>
      layout.elementOf type = .ok element :=
  keeps_lookup_getD fun id isBase =>
    textual.references type inTable id (by simp [Option.mem_def.mp isBase])

end Layout.Textual

namespace Decode

/--
Whether the values of a type lie elsewhere is told, or an element type is not
defined.
-/
theorem keeps_storedElsewhere
    (textual : layout.Textual)
    (acyclic : layout.Acyclic)
    (inTable : type ∈ layout.types) :
    Keeps (storedElsewhere layout type) fun elsewhere =>
      storedElsewhere layout type = .ok elsewhere := by
  refine Keeps.eq_ok ?_
  apply acyclic.induction _ inTable
  intro type inTable ofParts
  by_cases isInPlace : type.encoding = .inplace
  · cases hasBase : type.base with
    | none =>
        rw [storedElsewhere_of_base_isNone isInPlace hasBase]
        exact .ok trivial
    | some base =>
        have isFixedArray : type.isFixedArray :=
          TypeEntry.isFixedArray_iff.mpr ⟨isInPlace, base, hasBase⟩
        rw [storedElsewhere_of_isFixedArray acyclic inTable isFixedArray]
        exact (textual.keeps_elementOf inTable).bind fun element found =>
          ofParts element (Layout.isPartOf_of_element isFixedArray found)
  · rw [storedElsewhere_of_encoding isInPlace]
    exact .ok trivial

/--
The elements of an array lie in its slots, or it is reported that they do not.
-/
theorem keeps_elementInPlace
    (textual : layout.Textual)
    (acyclic : layout.Acyclic)
    (inTable : type ∈ layout.types) :
    Keeps (elementInPlace layout type) fun element =>
      layout.elementOf type = .ok element ∧
        storedElsewhere layout element = .ok false := by
  unfold elementInPlace
  refine (textual.keeps_elementOf inTable).bind fun element found => ?_
  have elementInTable := Layout.mem_types_of_lookup found
  refine (keeps_storedElsewhere textual acyclic elementInTable).bind
    fun elsewhere isElsewhere => ?_
  cases elsewhere with
  | true =>
      exact .error (by
        simp [UnsupportedFault.shownValues, textual.canShow_label inTable,
          textual.canShow_label elementInTable])
  | false =>
      exact .ok ⟨found, isElsewhere⟩

/--
The bytes of a value are cut out of its word, or it is reported that they do
not lie in it.
-/
theorem keeps_window
    {word : Bytes}
    {offset size : Int}
    (wholeWord : word.length = slotSize)
    (canWrite : Value.canWriteInt offset)
    (bounded : size.natAbs < spanBound) :
    Keeps (Word.window word offset size) fun data =>
      data.length = size.toNat ∧ 0 < size ∧ size ≤ slotSize := by
  by_cases outside : offset < 0 ∨ size ≤ 0 ∨ offset + size > slotSize
  · rw [Word.window, if_neg (not_not.mpr wholeWord), if_pos outside]
    exact .error (by
      simp [SchemaFault.shownValues, canWrite,
        canWriteInt_of_lt_spanBound bounded])
  · push Not at outside
    obtain ⟨nonneg, positive, inSlot⟩ := outside
    obtain ⟨data, isData, isLength⟩ :=
      Word.exists_window wholeWord nonneg positive inSlot
    rw [isData]
    exact .ok ⟨isLength, positive, by omega⟩

end Decode

/-- Digits that are not too many write a number that can be written. -/
theorem Label.keeps_numberOf
    {digits : List Char}
    (notEmpty : digits ≠ [])
    (areDigits : ∀ c ∈ digits, isDigit c)
    (short : digits.length ≤ Numeral.maxDecimalDigits) :
    Keeps (numberOf digits) fun n => Value.canWriteInt n := by
  obtain ⟨n, isNumber, below⟩ := exists_numberOf notEmpty areDigits short
  have canWrite : n < Value.writableBound := by
    rw [Value.writableBound_eq]
    exact below.trans_le (Nat.pow_le_pow_right (by decide) short)
  rw [isNumber]
  exact .ok (by simpa [Value.canWriteInt] using canWrite)

namespace Layout.Regular

/--
What the label of a scalar says is told, or it is reported that it says
nothing.
-/
theorem keeps_typeLabel
    (textual : layout.Textual)
    (regular : layout.Regular)
    (inTable : type ∈ layout.types)
    (isSlotScalar : type.isSlotScalar) :
    Keeps (type.typeLabel none) fun parts =>
      type.typeLabel none = .ok parts := by
  refine Keeps.eq_ok ?_
  obtain ⟨label, isLabel⟩ :=
    Value.exists_of_isText (textual.labels type inTable)
  simp only [TypeEntry.typeLabel, TypeEntry.labelText, isLabel, Outcome.ok_bind]
  split
  · exact .ok trivial
  · split
    · exact .error (by simp [UnsupportedFault.shownValues])
    · next parts found =>
        obtain ⟨notEmpty, sizeDigits, dimensionDigits⟩ :=
          Label.areDigits_of_parts? found
        have short := regular.numerals type inTable
        rw [TypeEntry.numerals_of_isSlotScalar isSlotScalar isLabel found]
          at short
        obtain ⟨shortSize, shortDimension⟩ := List.forall_mem_cons.mp short
        have bits : Keeps (TypeEntry.labelBits parts) fun _ => True :=
          (Label.keeps_numberOf notEmpty sizeDigits shortSize).bind fun _ _ =>
            .ok trivial
        have length : Keeps (TypeEntry.labelLength parts) fun _ => True := by
          unfold TypeEntry.labelLength
          split
          · next digit digits isDimension =>
              exact (Label.keeps_numberOf (List.cons_ne_nil _ _)
                (dimensionDigits _ isDimension)
                (shortDimension _ (by simp [isDimension]))).bind fun _ _ =>
                  .ok trivial
          · exact .ok trivial
        split
        · next isTable =>
            cases isTable
        · exact bits.bind fun _ _ => length.bind fun _ _ => .ok trivial

/--
The length of an array is told by its label, or it is reported that it is not.
-/
theorem keeps_fixedLength
    (textual : layout.Textual)
    (regular : layout.Regular)
    (inTable : type ∈ layout.types) :
    Keeps type.fixedLength fun length =>
      type.fixedLength = .ok length ∧ Value.canWriteInt length := by
  refine Keeps.and_eq ?_
  obtain ⟨label, isLabel⟩ :=
    Value.exists_of_isText (textual.labels type inTable)
  simp only [TypeEntry.fixedLength, isLabel]
  split
  · next digit digits isFixedArray found =>
      exact Label.keeps_numberOf (List.cons_ne_nil _ _)
        (fun _ isIn => Label.isDigit_of_mem_lastDimension? found isIn)
        (regular.numerals type inTable _
          (TypeEntry.mem_numerals_of_isFixedArray isFixedArray isLabel found))
  · exact .error (by simp [SchemaFault.shownValues])

end Layout.Regular

namespace Decode

variable {words : List Bytes}

/--
A scalar is decoded from its bytes, or it is reported that its label says
nothing.
-/
theorem keeps_scalar
    {data : Bytes}
    (textual : layout.Textual)
    (regular : layout.Regular)
    (inTable : type ∈ layout.types)
    (isSlotScalar : type.isSlotScalar)
    (wholeData : data.length = type.size.toNat) :
    Keeps (scalar hash data type) fun _ => True := by
  obtain ⟨label, isLabel⟩ :=
    Value.exists_of_isText (textual.labels type inTable)
  obtain ⟨isScalar, _⟩ := TypeEntry.isSlotScalar_iff.mp isSlotScalar
  simp only [scalar, isScalar, TypeEntry.labelText, isLabel, Outcome.ok_bind,
    Bool.not_true, Bool.false_eq_true, ↓reduceIte]
  split
  · exact .ok trivial
  split
  · next isAccount =>
      have isAddress : type.size = 20 := by
        apply regular.accounts type inTable isSlotScalar
        rw [isLabel]
        exact TypeEntry.isAccount_text_iff.mpr isAccount
      rw [if_pos (by rw [wholeData, isAddress]; rfl)]
      exact .ok trivial
  split
  · exact .ok trivial
  refine (regular.keeps_typeLabel textual inTable isSlotScalar).bind
    fun parts isParts => ?_
  split
  · exact .ok trivial
  · exact .ok trivial
  · next isInt isSigned =>
      obtain ⟨n, isNumber⟩ :=
        @TwosComplement.exists_decode (Bytes.toNat data) parts.bits
          (regular.widths type inTable isSlotScalar parts isParts isInt
            isSigned).1
      rw [isNumber]
      exact .ok trivial

/--
Whether decoding a type keeps the promise, whatever whole words it is given.
-/
def KeepsPromise
    (hash : Digest)
    (layout : Layout)
    (type : TypeEntry) :
    Prop :=
  ∀ words offset,
    (∀ word ∈ words, word.length = slotSize) →
    Value.canWriteInt offset →
    (type.isScalar → words ≠ []) →
    Keeps (value hash layout words offset type) fun _ => True

/-- A scalar is decoded from the first of its words. -/
theorem keepsPromise_of_isScalar
    (textual : layout.Textual)
    (regular : layout.Regular)
    (inTable : type ∈ layout.types)
    (isScalar : type.isScalar) :
    KeepsPromise hash layout type := by
  intro words offset wholeWords canWrite notEmpty
  cases words with
  | nil =>
      exact absurd rfl (notEmpty isScalar)
  | cons word rest =>
      rw [value_of_isScalar isScalar]
      have window :=
        keeps_window (wholeWords word List.mem_cons_self) canWrite
          (regular.sizes type inTable)
      exact window.bind fun data ⟨wholeData, inSlot⟩ =>
        keeps_scalar textual regular inTable
          (TypeEntry.isSlotScalar_iff.mpr ⟨isScalar, inSlot⟩) wholeData

/-- A member of a struct is decoded, left out or reported. -/
theorem keeps_memberWith
    {member : Variable}
    {members : List Variable}
    (textual : layout.Textual)
    (regular : layout.Regular)
    (acyclic : layout.Acyclic)
    (inTable : type ∈ layout.types)
    (hasMembers : type.members = some members)
    (isMember : member ∈ members)
    (ofParts :
      ∀ part, layout.IsPartOf part type → KeepsPromise hash layout part)
    (wholeWords : ∀ word ∈ words, word.length = slotSize)
    (decoded : List (Value × Value)) :
    Keeps (memberWith (value hash layout) layout words type decoded member)
      fun _ => True := by
  have isMemberOf : member ∈ type.members.getD [] := by
    rwa [hasMembers]
  obtain ⟨labelIsText, typeIsText⟩ :=
    textual.members type inTable member isMemberOf
  obtain ⟨label, isLabel⟩ := Value.exists_of_isText labelIsText
  obtain ⟨canWrite, hasBytes⟩ := regular.members type inTable member isMemberOf
  have lookedUp : Keeps (layout.lookup member.type) fun memberType =>
      layout.lookup member.type = .ok memberType :=
    @keeps_lookup_getD layout (some member.type) (by simpa using typeIsText)
  unfold memberWith
  refine lookedUp.bind fun memberType found => ?_
  have memberInTable := Layout.mem_types_of_lookup found
  refine (keeps_storedElsewhere textual acyclic memberInTable).bind
    fun elsewhere _ => ?_
  cases elsewhere with
  | true =>
      exact .ok trivial
  | false =>
      refine (keeps_slotSpan (regular.sizes memberType memberInTable)).bind
        fun span ⟨_, spanPos⟩ => ?_
      dsimp only
      split
      · exact .error (by
          simp [SchemaFault.shownValues, isLabel,
            textual.canShow_label inTable])
      · next enough =>
          have notEmpty :
              memberType.isScalar →
                between words member.slot (member.slot + span) ≠ [] := by
            intro isScalar isEmpty
            have := spanPos (hasBytes memberType found isScalar)
            rw [isEmpty, List.length_nil] at enough
            omega
          have keepsPart :=
            ofParts memberType
              (Layout.isPartOf_of_member hasMembers isMember found)
              (between words member.slot (member.slot + span)) member.offset
              (fun word isIn => wholeWords word (mem_of_mem_between isIn))
                canWrite notEmpty
          refine keepsPart.bind fun _ _ => ?_
          rw [isLabel]
          exact .ok trivial

/-- A struct is decoded as its members are. -/
theorem keeps_struct
    (textual : layout.Textual)
    (regular : layout.Regular)
    (acyclic : layout.Acyclic)
    (inTable : type ∈ layout.types)
    (ofParts :
      ∀ part, layout.IsPartOf part type → KeepsPromise hash layout part)
    (wholeWords : ∀ word ∈ words, word.length = slotSize) :
    Keeps (struct hash layout words type) fun _ => True := by
  unfold struct structWith
  split
  · exact .error
      (by simp [SchemaFault.shownValues, textual.canShow_label inTable])
  · next members hasMembers =>
      exact Keeps.foldlM trivial fun decoded _ member isMember =>
        keeps_memberWith textual regular acyclic inTable hasMembers isMember
          ofParts wholeWords decoded

/--
The elements of an array are decoded if there are words for all of them; if not,
this is reported, as long as the length and the span can be written.
-/
theorem keeps_elements
    {element : TypeEntry}
    {length : Int}
    (textual : layout.Textual)
    (regular : layout.Regular)
    (inTable : type ∈ layout.types)
    (found : layout.elementOf type = .ok element)
    (ofElement : KeepsPromise hash layout element)
    (canTell :
      ∀ span,
        arraySpan length element.size = .ok span →
        span ≤ words.length ∨ Value.canWriteInt length ∧ Value.canWriteInt span)
    (wholeWords : ∀ word ∈ words, word.length = slotSize) :
    Keeps
      (do
        let span ← slotSpan element.size
        let needed ← arraySpan length element.size
        if words.length < needed then
          .error (.schema (.tooFewSlots type.label length needed words.length))
        else
          (List.range length.toNat).mapM
            (elementWith (value hash layout) words element span))
      fun _ => True := by
  have bounded := regular.sizes element (Layout.mem_types_of_lookup found)
  refine (keeps_slotSpan bounded).bind fun span ⟨isSpan, spanPos⟩ => ?_
  refine (keeps_arraySpan bounded).bind fun needed isNeeded => ?_
  split
  · next tooFew =>
      obtain ⟨canWriteLength, canWriteNeeded⟩ :=
        (canTell needed isNeeded).resolve_left (not_le.mpr tooFew)
      have canWriteFound : Value.canWriteInt words.length := by
        simp only [Value.canWriteInt, decide_eq_true_eq] at canWriteNeeded ⊢
        omega
      exact .error (by
        simp [SchemaFault.shownValues, textual.canShow_label inTable,
          canWriteLength, canWriteNeeded, canWriteFound])
  next enough =>
  apply Keeps.mapM
  intro index inside
  rw [List.mem_range] at inside
  have notEmpty : 0 < length := by
    omega
  have positive := size_pos_of_arraySpan notEmpty isNeeded
  have spanNonneg := (spanPos positive).le
  rw [arraySpan, if_neg (not_le.mpr notEmpty), isSpan] at isNeeded
  obtain ⟨last, isLast, isNeeded⟩ := Outcome.bind_eq_ok_iff.mp isNeeded
  obtain rfl := Except.ok.inj isNeeded
  unfold elementWith
  refine (keeps_elementPlace (Int.natCast_nonneg index) bounded).bind
    fun place isPlace => ?_
  obtain ⟨slotNonneg, notBehind⟩ :=
    slot_le_of_elementPlace isSpan spanNonneg isPlace isLast (by omega)
  have ownLength :
      (between words place.slot (place.slot + span)).length = span.toNat := by
    rw [length_between slotNonneg (by omega)]
    omega
  apply ofElement
  · exact fun word isIn => wholeWords word (mem_of_mem_between isIn)
  · exact canWriteInt_of_elementPlace isPlace
  · intro _ isEmpty
    have := spanPos positive
    rw [isEmpty, List.length_nil] at ownLength
    omega

/-- An array is decoded, or it is reported why it is not. -/
theorem keeps_sequence
    {given : Option Int}
    (textual : layout.Textual)
    (regular : layout.Regular)
    (acyclic : layout.Acyclic)
    (inTable : type ∈ layout.types)
    (ofElement :
      ∀ element,
        layout.elementOf type = .ok element →
        storedElsewhere layout element = .ok false →
        KeepsPromise hash layout element)
    (canTell :
      Keeps (given.elim type.fixedLength .ok) fun length =>
        ∀ element,
          layout.elementOf type = .ok element →
          ∀ span,
            arraySpan length element.size = .ok span →
            span ≤ words.length ∨
              Value.canWriteInt length ∧ Value.canWriteInt span)
    (wholeWords : ∀ word ∈ words, word.length = slotSize) :
    Keeps (sequence hash layout words type given) fun _ => True := by
  unfold sequence sequenceWith
  split
  · exact .error
      (by simp [SchemaFault.shownValues, textual.canShow_label inTable])
  refine (keeps_elementInPlace textual acyclic inTable).bind
    fun element ⟨found, inPlace⟩ => ?_
  have elements {length : Int} :=
    @keeps_elements hash layout type words element length textual regular
      inTable found (ofElement element found inPlace)
  cases given with
  | none =>
      exact canTell.bind fun length canTell =>
        elements (canTell element found) wholeWords
  | some length =>
      cases canTell with
      | ok canTell =>
          simp only [Outcome.ok_bind]
          exact elements (canTell element found) wholeWords

/--
The length and the span of an array with a length in its label can be written.
-/
theorem keeps_canTell
    (textual : layout.Textual)
    (regular : layout.Regular)
    (inTable : type ∈ layout.types)
    (isFixedArray : type.isFixedArray) :
    Keeps type.fixedLength fun length =>
      ∀ element,
        layout.elementOf type = .ok element →
        ∀ span,
          arraySpan length element.size = .ok span →
          span ≤ words.length ∨
            Value.canWriteInt length ∧ Value.canWriteInt span :=
  (regular.keeps_fixedLength textual inTable).mono
    fun length ⟨isLength, canWrite⟩ element found span isSpan =>
      .inr ⟨canWrite,
        regular.fixedArrays type inTable isFixedArray element found length
          isLength span isSpan⟩

/-- Decoding keeps the promise for every type of the table. -/
theorem keepsPromise
    (textual : layout.Textual)
    (regular : layout.Regular)
    (acyclic : layout.Acyclic)
    (inTable : type ∈ layout.types) :
    KeepsPromise hash layout type := by
  apply acyclic.induction _ inTable
  intro type inTable ofParts
  by_cases isScalar : type.isScalar
  · exact keepsPromise_of_isScalar textual regular inTable isScalar
  intro words offset wholeWords canWrite _
  by_cases isStruct : type.isStruct
  · rw [value_of_isStruct acyclic inTable isStruct]
    exact (keeps_struct textual regular acyclic inTable ofParts wholeWords).map
      fun _ _ => trivial
  by_cases isFixedArray : type.isFixedArray
  · rw [value_of_isFixedArray acyclic inTable
      (by simpa using isStruct) isFixedArray]
    have keepsSequence :=
      @keeps_sequence hash layout type words none textual regular
        acyclic inTable
        (fun element found _ =>
          ofParts element (Layout.isPartOf_of_element isFixedArray found))
        (keeps_canTell textual regular inTable isFixedArray) wholeWords
    exact keepsSequence.map fun _ _ => trivial
  · simp only [value, Layout.depth, valueWithin, isScalar, isStruct,
      isFixedArray, ↓reduceIte, Bool.false_eq_true]
    exact .error
      (by simp [UnsupportedFault.shownValues, textual.canShow_label inTable])

end Decode

end EvmStorage
