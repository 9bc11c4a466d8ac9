import EvmStorage.Decode
import EvmStorage.Proofs.ByteString
import EvmStorage.Proofs.Decimal
import EvmStorage.Proofs.Outcome
import Mathlib.Tactic.Zify

namespace EvmStorage

/-!
# Values of scalar types

The label of a scalar type says which values it has and how their bytes are
written.  The bytes of a value are decoded to the value.
-/

namespace Label

/-- The label of an integer or a byte string of fixed size. -/
def ofWidth
    (isUnsigned : Bool)
    (kind : DataKind)
    (width : Nat) :
    String :=
  (if isUnsigned then "u" else "") ++ kind.name ++ toString width

/-- A width of at most 256 has few enough digits to be read. -/
theorem width_lt
    {width : Nat}
    (bounded : width ≤ 256) :
    width < 10 ^ Numeral.maxDecimalDigits := by
  calc
    width < 10 ^ 3 := by omega
    _ ≤ 10 ^ Numeral.maxDecimalDigits :=
      Nat.pow_le_pow_right (by decide) (by decide)

/-- The bits of a value whose label has a width. -/
def DataKind.bits
    (kind : DataKind)
    (width : Nat) :
    Int :=
  match kind with
  | .int => width
  | .bytes => width * 8

variable {isUnsigned : Bool} {kind : DataKind} {width : Nat}

theorem ofWidth_ne_bool :
    ofWidth isUnsigned kind width ≠ "bool" := by
  rw [ne_eq, ← String.toList_inj]
  cases isUnsigned <;> cases kind <;> simp [ofWidth, DataKind.name]

theorem not_startsWith_ofWidth
    {word : String}
    (isWord : word ∈ ["enum ", "address", "contract "]) :
    (ofWidth isUnsigned kind width).startsWith word = false := by
  rw [String.startsWith_string_eq_false_iff]
  simp only [List.mem_cons, List.not_mem_nil, or_false] at isWord
  rcases isWord with rfl | rfl | rfl <;>
    cases isUnsigned <;> cases kind <;> simp [ofWidth, DataKind.name]

end Label

namespace TypeEntry

/-- Whether a label is that of an address or of a contract. -/
def IsAccount (label : Value) : Prop :=
  label = .text "address" ∨ label = .text "address payable" ∨
    ∃ name, label = .text ("contract " ++ name)

/-- A label with a width tells the kind and the bits of a type. -/
theorem typeLabel_ofWidth
    {type : TypeEntry}
    {isUnsigned : Bool}
    {kind : Label.DataKind}
    {width : Nat}
    (isLabel : type.label = .text (Label.ofWidth isUnsigned kind width))
    (short : width < 10 ^ Numeral.maxDecimalDigits) :
    type.typeLabel none =
      .ok
        { isUnsigned, kind, bits := kind.bits width, arrayLength := none } := by
  have isParts := Label.parts?_toDigits isUnsigned kind width
  rw [← Label.ofWidth] at isParts
  have isBits :
      labelBits
        { isUnsigned, kind, size := Nat.toDigits 10 width, dimension := none } =
        .ok (kind.bits width) := by
    simp only [labelBits, Label.numberOf_toDigits short, Outcome.ok_bind,
      Outcome.pure_eq_ok]
    cases kind <;> rfl
  simp only [typeLabel, labelText, isLabel, Outcome.ok_bind, Outcome.pure_eq_ok,
    Label.not_startsWith_ofWidth, List.mem_cons, true_or, Bool.false_eq_true,
    ↓reduceIte, isParts, isBits, labelLength]
  cases type.base <;> rfl

end TypeEntry

/-- A value of a type that lies in one part of one slot. -/
inductive ScalarValue (type : TypeEntry) : Type where
  | flag
      (isLabel : type.label = .text "bool")
      (isByte : type.size = 1)
      (isSet : Bool)
  | account
      (isLabel : TypeEntry.IsAccount type.label)
      (isAddress : type.size = 20)
      (address : Bytes)
      (wholeAddress : address.length = 20)
  | choice
      (name : String)
      (isLabel : type.label = .text ("enum " ++ name))
      (n : Nat)
      (below : n < 256 ^ type.size.toNat)
  | unsigned
      (isLabel :
        type.label = .text (Label.ofWidth true .int (8 * type.size.toNat)))
      (n : Nat)
      (below : n < 256 ^ type.size.toNat)
  | signed
      (isLabel :
        type.label = .text (Label.ofWidth false .int (8 * type.size.toNat)))
      (n : Int)
      (above : -(2 ^ (8 * type.size.toNat - 1)) ≤ n)
      (below : n < 2 ^ (8 * type.size.toNat - 1))
  | raw
      (isLabel :
        type.label = .text (Label.ofWidth false .bytes type.size.toNat))
      (bytes : Bytes)
      (wholeBytes : bytes.length = type.size.toNat)

namespace ScalarValue

variable {type : TypeEntry}

/-- The bytes that store a value. -/
def content : ScalarValue type → Bytes
  | .flag _ _ isSet => [if isSet then 1 else 0]
  | .account _ _ address _ => address
  | .choice _ _ n _ => Bytes.ofNat type.size.toNat n
  | .unsigned _ n _ => Bytes.ofNat type.size.toNat n
  | .signed _ n _ _ =>
    Bytes.ofNat type.size.toNat (n % 2 ^ (8 * type.size.toNat)).toNat
  | .raw _ bytes _ => bytes

/-- A value as it is shown: accounts and byte strings are texts. -/
def value (hash : Digest) : ScalarValue type → Value
  | .flag _ _ isSet => .bool isSet
  | .account _ _ address _ => .text (Address.checksum hash address)
  | .choice _ _ n _ => .int n
  | .unsigned _ n _ => .int n
  | .signed _ n _ _ => .int n
  | .raw _ bytes _ => .text (Bytes.toMarkedHex bytes)

/-- A value takes the bytes of its type. -/
theorem length_content (scalar : ScalarValue type) :
    scalar.content.length = type.size.toNat := by
  cases scalar with
  | flag isLabel isByte isSet =>
      simp [content, isByte]
  | account isLabel isAddress address wholeAddress =>
      simp [content, isAddress, wholeAddress]
  | raw isLabel bytes wholeBytes =>
      exact wholeBytes
  | choice | unsigned | signed =>
      simp [content]

end ScalarValue

namespace TwosComplement

theorem modulus_eq (width : Nat) :
    modulus width = 2 ^ width := by
  simp [modulus]

theorem signBound_eq (width : Nat) :
    signBound width = 2 ^ (width - 1) := by
  simp [signBound]

/-- Half of the stored numbers stand for integers below zero. -/
theorem modulus_eq_twice
    {width : Nat}
    (positive : 0 < width) :
    modulus width = 2 * signBound width := by
  rw [modulus_eq, signBound_eq, ← pow_succ', Nat.sub_add_cancel positive]

/-- A number is decoded from what it is modulo the power of two of its width. -/
theorem decode_emod
    {n : Int}
    {width : Nat}
    (positive : 0 < width)
    (above : -(2 ^ (width - 1)) ≤ n)
    (below : n < 2 ^ (width - 1)) :
    decode (n % 2 ^ width) width = .ok n := by
  have twice := modulus_eq_twice positive
  rw [modulus_eq, signBound_eq] at twice
  have notEmpty : ¬ (width : Int) ≤ 0 := by
    omega
  rw [decode, if_neg notEmpty, signBound_eq, modulus_eq, twice]
  generalize (2 : Int) ^ (width - 1) = half at *
  by_cases negative : n < 0
  · have isStored : n % (2 * half) = n + 2 * half := by
      rw [← Int.add_emod_right]
      exact Int.emod_eq_of_lt (by omega) (by omega)
    rw [isStored, if_pos (by omega)]
    simp
  · have isStored : n % (2 * half) = n :=
      Int.emod_eq_of_lt (by omega) (by omega)
    rw [isStored, if_neg (by omega)]

end TwosComplement

namespace Decode

variable {hash : Digest} {type : TypeEntry} {data : Bytes} {width : Nat}

/-- What is no flag and no account is decoded by what its label says. -/
private theorem scalar_of_label
    {label : String}
    (isScalar : type.isScalar)
    (isLabel : type.label = .text label)
    (notBool : label ≠ "bool")
    (notAccount :
      ¬ (label = "address" ∨ label = "address payable" ∨
        label.startsWith "contract ")) :
    scalar hash data type =
      if label.startsWith "enum " then
        .ok (.int (Bytes.toNat data))
      else do
        let parts ← type.typeLabel none
        match parts.kind, parts.isUnsigned with
        | .bytes, _ => .ok (.text (Bytes.toMarkedHex data))
        | .int, true => .ok (.int (Bytes.toNat data))
        | .int, false => do
            let n ← TwosComplement.decode (Bytes.toNat data) parts.bits
            return .int n := by
  simp only [scalar, isScalar, TypeEntry.labelText, isLabel, Outcome.ok_bind,
    if_neg notBool, if_neg notAccount]
  rfl

theorem scalar_of_isAccount
    (isScalar : type.isScalar)
    (isLabel : TypeEntry.IsAccount type.label)
    (wholeAddress : data.length = 20) :
    scalar hash data type = .ok (.text (Address.checksum hash data)) := by
  obtain ⟨label, isText, notBool, isAccount⟩ :
      ∃ label,
        type.label = .text label ∧
          label ≠ "bool" ∧
          (label = "address" ∨ label = "address payable" ∨
            label.startsWith "contract ") := by
    rcases isLabel with isLabel | isLabel | ⟨name, isLabel⟩
    · exact ⟨_, isLabel, by decide +kernel, .inl rfl⟩
    · exact ⟨_, isLabel, by decide +kernel, .inr (.inl rfl)⟩
    · refine ⟨_, isLabel, ?_, .inr (.inr ?_)⟩
      · simp [← String.toList_inj]
      · simp [String.startsWith_string_iff]
  simp only [scalar, isScalar, TypeEntry.labelText, isText, Outcome.ok_bind,
    if_neg notBool, if_pos isAccount, wholeAddress]
  rfl

theorem scalar_of_enum
    {name : String}
    (isScalar : type.isScalar)
    (isLabel : type.label = .text ("enum " ++ name)) :
    scalar hash data type = .ok (.int (Bytes.toNat data)) := by
  have notBool : "enum " ++ name ≠ "bool" := by
    simp [← String.toList_inj]
  have notAccount :
      ¬ ("enum " ++ name = "address" ∨ "enum " ++ name = "address payable" ∨
        ("enum " ++ name).startsWith "contract ") := by
    simp [← String.toList_inj]
  rw [scalar_of_label isScalar isLabel notBool notAccount]
  simp

/-- What has a width in its label is decoded by kind and width. -/
theorem scalar_ofWidth
    {isUnsigned : Bool}
    {kind : Label.DataKind}
    (isScalar : type.isScalar)
    (isLabel : type.label = .text (Label.ofWidth isUnsigned kind width))
    (short : width < 10 ^ Numeral.maxDecimalDigits) :
    scalar hash data type = do
      let parts : TypeLabel :=
        { isUnsigned, kind, bits := kind.bits width, arrayLength := none }
      match parts.kind, parts.isUnsigned with
      | .bytes, _ => .ok (.text (Bytes.toMarkedHex data))
      | .int, true => .ok (.int (Bytes.toNat data))
      | .int, false => do
          let n ← TwosComplement.decode (Bytes.toNat data) parts.bits
          return .int n := by
  have notEnum :
      (Label.ofWidth isUnsigned kind width).startsWith "enum " = false :=
    Label.not_startsWith_ofWidth (by decide)
  have notContract :
      (Label.ofWidth isUnsigned kind width).startsWith "contract " = false :=
    Label.not_startsWith_ofWidth (by decide)
  have notAddress {word : String} (isWord : word.startsWith "address") :
      Label.ofWidth isUnsigned kind width ≠ word := by
    intro isEqual
    rw [← isEqual, Label.not_startsWith_ofWidth (by decide)] at isWord
    cases isWord
  have notAccount :
      ¬ (Label.ofWidth isUnsigned kind width = "address" ∨
        Label.ofWidth isUnsigned kind width = "address payable" ∨
        (Label.ofWidth isUnsigned kind width).startsWith "contract ") := by
    rintro (isAddress | isPayable | isContract)
    · exact notAddress (by decide +kernel) isAddress
    · exact notAddress (by decide +kernel) isPayable
    · rw [notContract] at isContract
      cases isContract
  rw [scalar_of_label isScalar isLabel Label.ofWidth_ne_bool notAccount,
    notEnum, TypeEntry.typeLabel_ofWidth isLabel short]
  rfl

/-- The bytes of a number with a sign are decoded in two's complement. -/
theorem scalar_of_signed
    (isScalar : type.isScalar)
    (isLabel : type.label = .text (Label.ofWidth false .int width))
    (bounded : width ≤ 256) :
    scalar hash data type =
      (TwosComplement.decode (Bytes.toNat data) width).map Value.int := by
  rw [scalar_ofWidth isScalar isLabel (Label.width_lt bounded)]
  simp only [Label.DataKind.bits]
  cases TwosComplement.decode (Bytes.toNat data) width <;> rfl

/--
The bytes of a number that stores an integer with a sign are decoded to the
integer.
-/
theorem scalar_of_stored
    {size : Nat}
    {n stored : Int}
    (isScalar : type.isScalar)
    (isLabel : type.label = .text (Label.ofWidth false .int (8 * size)))
    (fits : size ≤ slotSize)
    (nonneg : 0 ≤ stored)
    (below : stored < 2 ^ (8 * size))
    (isDecoded : TwosComplement.decode stored (8 * size : Nat) = .ok n) :
    scalar hash (Bytes.ofNat size stored.toNat) type = .ok (.int n) := by
  have isPower : 256 ^ size = 2 ^ (8 * size) := by
    rw [pow_mul]
    rfl
  have isStored :
      (Bytes.toNat (Bytes.ofNat size stored.toNat) : Int) = stored := by
    rw [Bytes.toNat_ofNat, Nat.mod_eq_of_lt, Int.toNat_of_nonneg nonneg]
    rw [isPower]
    zify
    rwa [Int.toNat_of_nonneg nonneg]
  rw [scalar_of_signed isScalar isLabel (Nat.mul_le_mul_left 8 fits), isStored,
    isDecoded]
  rfl

end Decode

namespace ScalarValue

variable {type : TypeEntry} {hash : Digest}

/-- The bytes of a value are decoded to the value. -/
theorem scalar_content
    (scalar : ScalarValue type)
    (isScalar : type.isScalar)
    (positive : 0 < type.size)
    (small : type.size ≤ 32) :
    Decode.scalar hash scalar.content type = .ok (scalar.value hash) := by
  cases scalar with
  | flag isLabel isByte isSet =>
      cases isSet <;>
        simp [Decode.scalar, isScalar, TypeEntry.labelText, isLabel, content,
          value]
  | account isLabel isAddress address wholeAddress =>
      exact Decode.scalar_of_isAccount isScalar isLabel wholeAddress
  | choice name isLabel n below =>
      rw [Decode.scalar_of_enum isScalar isLabel, content, Bytes.toNat_ofNat,
        Nat.mod_eq_of_lt below]
      rfl
  | unsigned isLabel n below =>
      rw [Decode.scalar_ofWidth isScalar isLabel (Label.width_lt (by omega)),
        content, Bytes.toNat_ofNat, Nat.mod_eq_of_lt below]
      rfl
  | signed isLabel n above below =>
      have isPositive : (0 : Int) < 2 ^ (8 * type.size.toNat) :=
        Int.pow_pos (by decide)
      have fits : type.size.toNat ≤ slotSize := by
        simp only [slotSize]
        omega
      exact Decode.scalar_of_stored isScalar isLabel fits
        (Int.emod_nonneg _ isPositive.ne')
        (Int.emod_lt_of_pos n isPositive)
          (TwosComplement.decode_emod (by omega) above below)
  | raw isLabel bytes wholeBytes =>
      rw [Decode.scalar_ofWidth isScalar isLabel (Label.width_lt (by omega))]
      rfl

end ScalarValue

end EvmStorage
