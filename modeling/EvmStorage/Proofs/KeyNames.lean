import EvmStorage.Key.TypeName
import EvmStorage.Proofs.KeySpelling
import Mathlib.Data.List.Infix

namespace EvmStorage.Key

/-!
# Identifiers of key types

A compiler gives each type an identifier.  The one of an elementary type holds
its name, those of contracts and enums the name of their declaration, and
those of texts and byte strings where they lie.  Keys are encoded under the
name of the elementary type that is identified.
-/

/--
A text occurs in another exactly if the other has it as a part without gaps.
-/
theorem occursIn_iff
    {part s : List Char} :
    occursIn part s ↔ part <:+: s := by
  induction s with
  | nil =>
      simp [occursIn]
  | cons c rest inductionHypothesis =>
      simp [occursIn, List.infix_cons_iff, inductionHypothesis]

/-- What does not hold a separator ends in front of it if it begins there. -/
theorem prefix_of_prefix_append_cons
    {part front behind : List α}
    {separator : α}
    (noSeparator : separator ∉ part)
    (begins : part <+: front ++ separator :: behind) :
    part <+: front := by
  rcases List.prefix_or_prefix_of_prefix begins
    (List.prefix_append front _) with inside | beyond
  · exact inside
  · obtain ⟨rest, rfl⟩ := beyond
    rw [List.prefix_append_right_inj, List.prefix_cons_iff] at begins
    rcases begins with rfl | ⟨others, rfl, -⟩
    · simp
    · exact absurd (by simp) noSeparator

/--
What does not hold a separator occurs around it exactly if it occurs in front
or behind.
-/
theorem infix_append_cons_iff
    {part front behind : List α}
    {separator : α}
    (noSeparator : separator ∉ part) :
    part <:+: front ++ separator :: behind ↔
      part <:+: front ∨ part <:+: behind := by
  constructor
  · intro occurs
    induction front with
    | nil =>
        rcases List.infix_cons_iff.mp occurs with begins | inside
        · exact .inl (@prefix_of_prefix_append_cons _ part [] _ _
            noSeparator begins).isInfix
        · exact .inr inside
    | cons c rest inductionHypothesis =>
        rcases List.infix_cons_iff.mp occurs with begins | inside
        · have begins : part <+: (c :: rest) ++ separator :: behind := begins
          exact .inl (prefix_of_prefix_append_cons noSeparator begins).isInfix
        · rcases inductionHypothesis inside with inRest | isBehind
          · exact .inl (List.infix_cons inRest)
          · exact .inr isBehind
  · rintro (inFront | isBehind)
    · exact inFront.trans (List.prefix_append _ _).isInfix
    · exact (List.infix_cons isBehind).trans (List.suffix_append _ _).isInfix

/-- Where texts and byte strings may lie, as their identifiers name it. -/
def locations : List String :=
  ["storage", "storage_ptr", "memory_ptr", "calldata_ptr"]

/--
The identifiers of the elementary types.

Contracts are addresses, and enums of one byte are numbers; the identifier
holds the name and the number of the declaration.
-/
inductive Identifies : String → Elementary → Prop where
  | word
      (type : WordType) :
      Identifies ("t_" ++ type.name) (.word type)
  | payable :
      Identifies "t_address_payable" (.word .address)
  | contract
      (name : String)
      (number : Nat) :
      Identifies ("t_contract(" ++ name ++ ")" ++ toString number)
        (.word .address)
  | choice
      {name : String}
      (noContract : ¬ "contract".toList <:+: name.toList)
      (number : Nat) :
      Identifies ("t_enum(" ++ name ++ ")" ++ toString number) (.word (.uint 8))
  | string
      {location : String}
      (isLocation : location ∈ locations) :
      Identifies ("t_string_" ++ location) .string
  | bytes
      {location : String}
      (isLocation : location ∈ locations) :
      Identifies ("t_bytes_" ++ location) .bytes

/--
The name of an elementary type that fills a word is found behind the mark of
identifiers.
-/
theorem typeName_of_word
    {type : WordType}
    (elementary : type.IsElementary) :
    typeName ("t_" ++ type.name) = type.name := by
  refine WordType.IsElementary.of_widths ?_ ?_ elementary
  · decide +kernel
  · decide +kernel

section Marked

variable {rest : String}

/--
Behind the mark the words that occur come first, and then how the rest begins.
-/
theorem typeName_marked (rest : String) :
    typeName ("t_" ++ rest) =
      if occursIn "contract".toList rest.toList ||
        rest.startsWith "address" then
        "address"
      else if occursIn "enum".toList rest.toList then
        "uint8"
      else if rest.startsWith "string" then
        "string"
      else if rest.startsWith "bytes_" then
        "bytes"
      else
        rest := by
  have isRest : dropTypeMark ("t_" ++ rest).toList = rest.toList := by
    simp [dropTypeMark]
  simp only [typeName, isRest, String.ofList_toList]

/-- Where the word for contracts occurs, the keys are addresses. -/
theorem typeName_of_contractWord
    (isPart : "contract".toList <:+: rest.toList) :
    typeName ("t_" ++ rest) = "address" := by
  rw [typeName_marked, occursIn_iff.mpr isPart, Bool.true_or, if_pos rfl]

/--
Where the word for contracts does not occur but the one for enums does, they
are numbers.
-/
theorem typeName_of_enumWord
    (noContract : ¬ "contract".toList <:+: rest.toList)
    (notAddress : rest.startsWith "address" = false)
    (isPart : "enum".toList <:+: rest.toList) :
    typeName ("t_" ++ rest) = "uint8" := by
  rw [← occursIn_iff, Bool.not_eq_true] at noContract
  rw [typeName_marked, noContract, notAddress, occursIn_iff.mpr isPart]
  rfl

/-- Where neither word occurs, the beginning decides. -/
theorem typeName_of_neither
    (noContract : ¬ "contract".toList <:+: rest.toList)
    (notAddress : rest.startsWith "address" = false)
    (noEnum : ¬ "enum".toList <:+: rest.toList) :
    typeName ("t_" ++ rest) =
      if rest.startsWith "string" then
        "string"
      else if rest.startsWith "bytes_" then
        "bytes"
      else
        rest := by
  rw [← occursIn_iff, Bool.not_eq_true] at noContract noEnum
  rw [typeName_marked, noContract, notAddress, noEnum]
  rfl

end Marked

section Declared

variable {kind name number : String}

/--
A word occurs in the text of a declared type exactly if its kind or its name
holds it.
-/
theorem infix_declared_iff
    {word : String}
    (notEmpty : word.toList ≠ [])
    (isWord : word.toList.all fun c => !c.isDigit && c != '(' && c != ')')
    (digits : number.toList.all Char.isDigit) :
    word.toList <:+: (kind ++ "(" ++ name ++ ")" ++ number).toList ↔
      word.toList <:+: kind.toList ∨ word.toList <:+: name.toList := by
  rw [List.all_eq_true] at isWord digits
  have isText :
      (kind ++ "(" ++ name ++ ")" ++ number).toList =
        kind.toList ++ '(' :: (name.toList ++ ')' :: number.toList) := by
    simp
  have notInNumber : ¬ word.toList <:+: number.toList := by
    intro isPart
    obtain ⟨c, others, isCons⟩ := List.exists_cons_of_ne_nil notEmpty
    have isIn : c ∈ word.toList := by
      simp [isCons]
    have notDigit := isWord c isIn
    rw [digits c (isPart.subset isIn)] at notDigit
    cases notDigit
  rw [isText,
    infix_append_cons_iff fun isIn => absurd (isWord _ isIn) (by decide),
    infix_append_cons_iff fun isIn => absurd (isWord _ isIn) (by decide)]
  simp [notInNumber]

/-- The keys of contracts are addresses. -/
theorem typeName_of_contract (name number : String) :
    typeName ("t_" ++ ("contract(" ++ name ++ ")" ++ number)) = "address" := by
  refine typeName_of_contractWord ?_
  simp only [String.append_assoc, String.toList_append]
  exact ((List.prefix_append "contract".toList ['(']).trans
    (List.prefix_append _ _)).isInfix

/-- The keys of enums whose name does not tell of contracts are numbers. -/
theorem typeName_of_enum
    (noContract : ¬ "contract".toList <:+: name.toList)
    (digits : number.toList.all Char.isDigit) :
    typeName ("t_" ++ ("enum(" ++ name ++ ")" ++ number)) = "uint8" := by
  have occurs {word : String} := @infix_declared_iff "enum" name number word
  rw [show "enum" ++ "(" = "enum(" by decide] at occurs
  refine typeName_of_enumWord ?_ ?_ ?_
  · rw [occurs (by decide) (by decide) digits]
    exact not_or.mpr ⟨by decide, noContract⟩
  · rw [String.startsWith_string_eq_false_iff]
    simp
  · exact (occurs (by decide) (by decide) digits).mpr (.inl (List.infix_refl _))

end Declared

/-- Keys are encoded under the name of the type that is identified. -/
theorem Identifies.typeName_eq
    {id : String}
    {type : Elementary}
    (identifies : Identifies id type)
    (isType : type.IsType) :
    typeName id = type.name := by
  cases identifies with
  | word type =>
      exact typeName_of_word isType
  | payable =>
      decide +kernel
  | contract name number =>
      have isContract := typeName_of_contract name (toString number)
      rwa [← String.append_assoc, ← String.append_assoc, ← String.append_assoc]
        at isContract
  | choice noContract number =>
      have digits : (toString number).toList.all Char.isDigit := by
        rw [Nat.toString_eq_repr, Nat.toList_repr, List.all_eq_true]
        exact fun c isIn => Nat.isDigit_of_mem_toDigits (by decide) le_rfl isIn
      have isEnum := typeName_of_enum noContract digits
      rwa [← String.append_assoc, ← String.append_assoc, ← String.append_assoc]
        at isEnum
  | string isLocation =>
      have located :
          ∀ location ∈ locations,
            typeName ("t_string_" ++ location) = "string" := by
        decide +kernel
      exact located _ isLocation
  | bytes isLocation =>
      have located :
          ∀ location ∈ locations,
            typeName ("t_bytes_" ++ location) = "bytes" := by
        decide +kernel
      exact located _ isLocation

end EvmStorage.Key
