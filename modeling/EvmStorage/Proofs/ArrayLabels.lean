import EvmStorage.Proofs.PromisedPaths

namespace EvmStorage

/-!
# Labels of arrays

The label of an array is that of its elements, with a dimension behind it.  If
the elements are integers or byte strings of fixed size in the end, it tells
the length of the array, and the size of the elements is that of their type.
Two kinds of elements are not read so, although they have a size as well: the
label of an array of enumerations is taken for the label of an enumeration, and
that of an array of structs is refused.
-/

namespace Label

/-- What the elements of an array are, or those of its innermost arrays. -/
inductive Element where
  | sized (isUnsigned : Bool) (kind : DataKind) (width : Nat)
  | choice (name : String)
  | record (name : String)
  deriving DecidableEq

/-- The label of a type that is no array. -/
def Element.label : Element → String
  | .sized isUnsigned kind width => ofWidth isUnsigned kind width
  | .choice name => "enum " ++ name
  | .record name => "struct " ++ name

/-- The digits of a dimension, which has none if the length is stored. -/
def dimensionDigits : Option Nat → List Char
  | none => []
  | some length => Nat.toDigits 10 length

/-- A dimension as it stands in a label. -/
def dimensionText (dimension : Option Nat) : String :=
  String.ofList ('[' :: dimensionDigits dimension ++ [']'])

/-- The dimensions of an array, those of its elements first. -/
def dimensionsText : List (Option Nat) → String
  | [] => ""
  | dimension :: further => dimensionText dimension ++ dimensionsText further

/-- The label of an array with given dimensions. -/
def ofArray
    (element : Element)
    (dimensions : List (Option Nat)) :
    String :=
  element.label ++ dimensionsText dimensions

/-- Whether a dimension has few enough digits to be read. -/
def IsReadable (dimension : Option Nat) : Prop :=
  ∀ length ∈ dimension, length < 10 ^ Numeral.maxDecimalDigits

variable {dimension : Option Nat} {digits : List Char}

theorem dimensionsText_append (earlier later : List (Option Nat)) :
    dimensionsText (earlier ++ later) =
      dimensionsText earlier ++ dimensionsText later := by
  induction earlier with
  | nil =>
      simp [dimensionsText]
  | cons dimension rest inductionHypothesis =>
      simp [dimensionsText, inductionHypothesis, String.append_assoc]

/-- The last dimension stands at the end of a label. -/
theorem ofArray_concat
    (element : Element)
    (inner : List (Option Nat))
    (dimension : Option Nat) :
    (ofArray element (inner ++ [dimension])).toList =
      (ofArray element inner).toList ++
        '[' :: dimensionDigits dimension ++ [']'] := by
  simp [ofArray, dimensionsText_append, dimensionsText, dimensionText]

theorem isDigit_of_mem_dimensionDigits
    {c : Char}
    (isIn : c ∈ dimensionDigits dimension) :
    isDigit c ∧ c ≠ ']' := by
  cases dimension with
  | none =>
      cases isIn
  | some length =>
      obtain ⟨isDigit, notMark⟩ := isDigit_of_mem_toDigits isIn
      exact ⟨isDigit, fun isClosing => notMark (by simp [isClosing])⟩

/-- Behind an opened bracket, digits are taken up to the closing one. -/
theorem dimensions?_digits
    (last : Option (List Char))
    (behind : List Char)
    (areDigits : ∀ c ∈ digits, isDigit c ∧ c ≠ ']')
    (opened : List Char) :
    dimensions? (some opened) last (digits ++ ']' :: behind) =
      dimensions? none (some (opened.reverse ++ digits)) behind := by
  induction digits generalizing opened with
  | nil =>
      simp [dimensions?]
  | cons c rest inductionHypothesis =>
      obtain ⟨⟨isDigit, notClosing⟩, restDigits⟩ :=
        List.forall_mem_cons.mp areDigits
      simp [dimensions?, notClosing, isDigit, inductionHypothesis restDigits]

/-- Of the dimensions that a text consists of, the last one is found. -/
theorem dimensions?_dimensionsText
    (dimensions : List (Option Nat))
    (last : Option (List Char)) :
    dimensions? none last (dimensionsText dimensions).toList =
      some ((dimensions.getLast?.map dimensionDigits).or last) := by
  induction dimensions generalizing last with
  | nil =>
      simp [dimensionsText, dimensions?]
  | cons dimension rest inductionHypothesis =>
      have isText :
          (dimensionsText (dimension :: rest)).toList =
            '[' :: (dimensionDigits dimension ++ ']' ::
              (dimensionsText rest).toList) := by
        simp [dimensionsText, dimensionText]
      rw [isText, dimensions?,
        dimensions?_digits last _ (fun _ isIn =>
          isDigit_of_mem_dimensionDigits isIn),
        inductionHypothesis]
      cases rest with
      | nil =>
          simp
      | cons next further =>
          simp [List.getLast?_cons]

/--
The label of an array of sized elements is read as their kind and the last
dimension.
-/
theorem parts?_ofArray
    (isUnsigned : Bool)
    (kind : DataKind)
    (width : Nat)
    (inner : List (Option Nat))
    (dimension : Option Nat) :
    parts? (ofArray (.sized isUnsigned kind width) (inner ++ [dimension])) =
      some
        { isUnsigned, kind, size := Nat.toDigits 10 width
          dimension := some (dimensionDigits dimension) } := by
  have noLineEnd :
      dropLineEnd (ofArray (.sized isUnsigned kind width)
        (inner ++ [dimension])).toList =
        (ofArray (.sized isUnsigned kind width)
          (inner ++ [dimension])).toList := by
    rw [ofArray_concat]
    exact dropLineEnd_concat _ (by decide)
  obtain ⟨rest, areDimensions⟩ :
      ∃ rest, (dimensionsText (inner ++ [dimension])).toList = '[' :: rest := by
    cases inner <;> simp [dimensionsText, dimensionText]
  have isText :
      (ofArray (.sized isUnsigned kind width) (inner ++ [dimension])).toList =
        (if isUnsigned then ['u'] else []) ++ kind.name.toList ++
          (Nat.toDigits 10 width ++ '[' :: rest) := by
    rw [ofArray, String.toList_append, areDimensions]
    cases isUnsigned <;> simp [Element.label, ofWidth]
  have areDigits : ∀ c ∈ Nat.toDigits 10 width, isDigit c :=
    fun _ isIn => (isDigit_of_mem_toDigits isIn).1
  have notDigit : isDigit '[' = false := by
    decide +kernel
  have areTaken :
      (Nat.toDigits 10 width ++ '[' :: rest).takeWhile isDigit =
        Nat.toDigits 10 width := by
    simp [List.takeWhile_append_of_pos areDigits, notDigit]
  have areLeft :
      (Nat.toDigits 10 width ++ '[' :: rest).dropWhile isDigit =
        '[' :: rest := by
    simp [List.dropWhile_append_of_pos areDigits, notDigit]
  have lastDimension :
      dimensions? none none
        ('[' :: rest) = some (some (dimensionDigits dimension)) := by
    rw [← areDimensions, dimensions?_dimensionsText]
    simp
  have notEmpty : (Nat.toDigits 10 width).isEmpty = false := by
    simp [Nat.toDigits_ne_nil]
  rw [isText] at noLineEnd
  unfold parts?
  simp only [isText, noLineEnd]
  cases isUnsigned <;> cases kind <;>
    simp [-List.isEmpty_iff, DataKind.name, kind?, areTaken, areLeft, notEmpty,
      lastDimension]

/-- The label of an array of structs is none of an integer or a byte string. -/
theorem parts?_ofArray_record
    (name : String)
    (inner : List (Option Nat))
    (dimension : Option Nat) :
    parts? (ofArray (.record name) (inner ++ [dimension])) = none := by
  obtain ⟨rest, isText⟩ :
      ∃ rest,
        (ofArray (.record name) (inner ++ [dimension])).toList =
          's' :: rest := by
    simp [ofArray, Element.label]
  have noLineEnd : dropLineEnd ('s' :: rest) = 's' :: rest := by
    rw [← isText, ofArray_concat]
    exact dropLineEnd_concat _ (by decide)
  unfold parts?
  simp [isText, noLineEnd, kind?]

end Label

namespace TypeEntry

open Label (IsReadable ofArray dimensionText dimensionDigits)

variable {layout : Layout} {type base : TypeEntry} {element : Label.Element}
variable {inner : List (Option Nat)} {dimension : Option Nat}

/-- The length that a label tells is the number of its last dimension. -/
theorem labelLength_of_dimension
    {parts : Label.Parts}
    (isDimension : parts.dimension = some (dimensionDigits dimension)) :
    labelLength parts =
      dimension.mapM fun length => Label.numberOf (Nat.toDigits 10 length) := by
  unfold labelLength
  rw [isDimension]
  cases dimension with
  | none =>
      rfl
  | some length =>
      rw [dimensionDigits]
      cases areDigits : Nat.toDigits 10 length with
      | nil =>
          exact absurd areDigits Nat.toDigits_ne_nil
      | cons digit digits =>
          simp only [areDigits, Option.mapM_some]
          rfl

/--
A type whose elements are found refers to their type, and has its size at hand.
-/
theorem exists_base_of_elementOf
    (isBase : layout.elementOf type = .ok base) :
    ∃ id, type.base = some id ∧ layout.sizeOf id = .ok base.size := by
  cases isId : type.base with
  | none =>
      simp [Layout.elementOf, isId, Layout.lookup, Value.isLabel] at isBase
  | some id =>
      refine ⟨id, rfl, ?_⟩
      simp only [Layout.elementOf, isId, Option.getD_some] at isBase
      simp [Layout.sizeOf, isBase]

/--
The label of an array of sized elements tells their size and the length that is
read.
-/
theorem typeLabel_of_sized
    {isUnsigned : Bool}
    {kind : Label.DataKind}
    {width : Nat}
    (isBase : layout.elementOf type = .ok base)
    (isLabel :
      type.label =
        .text (ofArray (.sized isUnsigned kind width) (inner ++ [dimension]))) :
    type.typeLabel (some layout) =
      (dimension.mapM fun length => Label.numberOf (Nat.toDigits 10 length)).map
        fun arrayLength =>
          { isUnsigned, kind, bits := 8 * base.size, arrayLength } := by
  obtain ⟨id, isId, isSize⟩ := exists_base_of_elementOf isBase
  have noChoice :
      (ofArray (.sized isUnsigned kind width) (inner ++ [dimension])).startsWith
        "enum " =
        false := by
    rw [String.startsWith_string_eq_false_iff]
    cases isUnsigned <;> cases kind <;>
      simp [ofArray, Label.Element.label, Label.ofWidth, Label.DataKind.name]
  have isLength := fun size =>
    @labelLength_of_dimension dimension
      { isUnsigned, kind, size, dimension := some (dimensionDigits dimension) }
        rfl
  simp only [typeLabel, labelText, isLabel, Outcome.ok_bind, noChoice,
    Bool.false_eq_true, ↓reduceIte, Label.parts?_ofArray, isId, isSize,
    Outcome.pure_eq_ok, isLength, mul_comm base.size]
  cases dimension.mapM fun length =>
    Label.numberOf (Nat.toDigits 10 length) with
  | ok length =>
      rfl
  | error fault =>
      rfl

/--
For an array whose elements are integers or byte strings of fixed size in the
end, the label tells the size of the elements and the length of the array, if
the length has few enough digits to be read.

It tells the size of the whole array and no length if they are enumerations,
and it is refused if they are structs.
-/
theorem typeLabel_of_array
    (isBase : layout.elementOf type = .ok base)
    (baseLabel : base.label = .text (ofArray element inner))
    (isLabel :
      type.labelText = base.labelText.map (· ++ dimensionText dimension)) :
    (∀ isUnsigned kind width, element = .sized isUnsigned kind width →
        (IsReadable dimension →
          type.typeLabel (some layout) =
            .ok
              { isUnsigned, kind, bits := 8 * base.size
                arrayLength := dimension.map fun length => (length : Int) }) ∧
          (¬ IsReadable dimension →
            type.typeLabel (some layout) = .error (.misuse .numeralTooLong))) ∧
      (∀ name, element = .choice name →
        type.typeLabel (some layout) =
          .ok
            { isUnsigned := true, kind := .int
              bits := 8 * type.size, arrayLength := none }) ∧
      (∀ name, element = .record name →
        ∃ label,
          type.typeLabel (some layout) =
            .error (.unsupported (.dataType label))) ∧
      (∀ length, dimension = some length → IsReadable dimension →
        type.isFixedArray →
        type.fixedLength = .ok (length : Int)) := by
  have isArrayLabel :
      type.label = .text (ofArray element (inner ++ [dimension])) := by
    simp only [labelText, baseLabel, Except.map] at isLabel
    split at isLabel
    · next label isText =>
        rw [isText, Except.ok.inj isLabel]
        simp [ofArray, Label.dimensionsText_append, Label.dimensionsText,
          String.append_assoc]
    · cases isLabel
  refine ⟨?_, ?_, ?_, ?_⟩
  · rintro isUnsigned kind width rfl
    rw [typeLabel_of_sized isBase isArrayLabel]
    refine ⟨fun isReadable => ?_, fun notReadable => ?_⟩
    · cases dimension with
      | none =>
          rfl
      | some length =>
          simp only [Option.mapM_some,
            Label.numberOf_toDigits (isReadable length rfl)]
          rfl
    · simp only [IsReadable, not_forall, not_lt] at notReadable
      obtain ⟨length, isDimension, long⟩ := notReadable
      obtain rfl := Option.mem_def.mp isDimension
      simp only [Option.mapM_some, Label.numberOf_toDigits_of_le long]
      rfl
  · rintro name rfl
    have isChoice :
        (ofArray (.choice name) (inner ++ [dimension])).startsWith
          "enum " = true := by
      rw [String.startsWith_string_iff]
      simp [ofArray, Label.Element.label]
    simp only [typeLabel, labelText, isArrayLabel, Outcome.ok_bind, isChoice,
      ↓reduceIte, mul_comm type.size, Outcome.pure_eq_ok]
  · rintro name rfl
    have noChoice :
        (ofArray (.record name) (inner ++ [dimension])).startsWith "enum " =
          false := by
      rw [String.startsWith_string_eq_false_iff]
      simp [ofArray, Label.Element.label]
    refine ⟨ofArray (.record name) (inner ++ [dimension]), ?_⟩
    simp only [typeLabel, labelText, isArrayLabel, Outcome.ok_bind, noChoice,
      Bool.false_eq_true, ↓reduceIte, Label.parts?_ofArray_record]
  · rintro length rfl isReadable isFixedArray
    refine fixedLength_of_hasLength isFixedArray ⟨ofArray element inner, ?_⟩
      (isReadable length rfl)
    rw [isArrayLabel, Value.text.injEq, ← String.toList_inj,
      Label.ofArray_concat]
    simp [dimensionDigits]

end TypeEntry

section Paint

open Contract (reportedVariable reportedType plainType slotVariable)

/--
A report of nested arrays of numbers, and of arrays of an enumeration and of a
struct.
-/
def paintReport : Value :=
  .record [
    ("storage", .list []),
    ("types", .record [
      reportedType "level" "inplace" "uint8" 1 [],
      reportedType "pair" "inplace" "uint8[2]" 32 [("base", .text "level")],
      reportedType "pairs" "inplace" "uint8[2][3]" 96 [("base", .text "pair")],
      reportedType "color" "inplace" "enum Color" 1 [],
      reportedType "colors" "inplace" "enum Color[3]" 32
        [("base", .text "color")],
      reportedType "point" "inplace" "struct Point" 64
        [("members",
          .list [reportedVariable "x" "level" 0,
            reportedVariable "y" "level" 1])],
      reportedType "points" "dynamic_array" "struct Point[]" 32
        [("base", .text "point")]])]

/-- The array of pairs of numbers. -/
def pairsType : TypeEntry :=
  { plainType "pairs" "uint8[2][3]" 96 with base := some (.text "pair") }

/-- The array of an enumeration of one byte. -/
def colorsType : TypeEntry :=
  { plainType "colors" "enum Color[3]" 32 with base := some (.text "color") }

/-- The array of a struct of two slots. -/
def pointsType : TypeEntry :=
  { plainType "points" "struct Point[]" 32 with
    encoding := .dynamicArray, base := some (.text "point") }

/-- The layout of the report. -/
def paintLayout : Layout where
  stateVariables := []
  types := [
    plainType "level" "uint8" 1,
    { plainType "pair" "uint8[2]" 32 with base := some (.text "level") },
    pairsType,
    plainType "color" "enum Color" 1,
    colorsType,
    { plainType "point" "struct Point" 64 with
      members := some [slotVariable "x" "level" 0,
        slotVariable "y" "level" 1] },
    pointsType]

/--
Of an array of pairs, the label tells the size of a pair and the outer length.
-/
theorem typeLabel_of_pairs :
    pairsType.typeLabel (some paintLayout) =
        .ok
          { isUnsigned := true, kind := .int
            bits := 8 * 32, arrayLength := some 3 } ∧
      pairsType.fixedLength = .ok 3 := by
  have isReadable : Label.IsReadable (some 3) := by
    rintro length ⟨⟩
    exact Label.width_lt (by decide)
  obtain ⟨sized, -, -, isLength⟩ :=
    @TypeEntry.typeLabel_of_array paintLayout pairsType
      { plainType "pair" "uint8[2]" 32 with base := some (.text "level") }
      (.sized true .int 8) [some 2] (some 3)
      (Outcome.eq_ok_of_toOption (by decide +kernel)) (by decide +kernel)
      (Outcome.eq_ok_of_toOption (by decide +kernel))
  exact ⟨(sized true .int 8 rfl).1 isReadable,
    isLength 3 rfl isReadable (by decide)⟩

/--
In a report that is accepted, the label of an array of three choices of one
byte tells the size of the array and no length, and the label of an array of
structs is refused.
-/
theorem typeLabel_of_colors_and_points :
    Layout.ofReport paintReport = .ok paintLayout ∧
      paintLayout.sizeOf (.text "color") = .ok 1 ∧
      colorsType.fixedLength = .ok 3 ∧
      colorsType.typeLabel (some paintLayout) =
        .ok
          { isUnsigned := true, kind := .int
            bits := 256, arrayLength := none } ∧
      paintLayout.sizeOf (.text "point") = .ok 64 ∧
      (pointsType.typeLabel (some paintLayout)).toOption = none := by
  exact ⟨Outcome.eq_ok_of_toOption (by decide +kernel),
    Outcome.eq_ok_of_toOption (by decide +kernel),
    Outcome.eq_ok_of_toOption (by decide +kernel),
      Outcome.eq_ok_of_toOption (by decide +kernel),
    Outcome.eq_ok_of_toOption (by decide +kernel), by decide +kernel⟩

end Paint

end EvmStorage
