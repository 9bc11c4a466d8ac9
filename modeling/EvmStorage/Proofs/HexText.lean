import EvmStorage.Address
import EvmStorage.Proofs.Numerals

namespace EvmStorage

/-!
# Bytes in hex digits

A text writes bytes behind a mark, with two hex digits of either letter case
for each of them, and it is read as these bytes.  The checked text of an
address is one of the texts that write the address.
-/

/-- A hex digit is its own lower case and that of its capital. -/
theorem toLower_hexDigit (n : Nat) :
    (hexDigit n).toLower = hexDigit n ∧
      (hexDigit n).toUpper.toLower = hexDigit n := by
  have sixteen :
      ∀ n < 16,
        (Nat.digitChar n).toLower = Nat.digitChar n ∧
          (Nat.digitChar n).toUpper.toLower = Nat.digitChar n := by
    decide +kernel
  exact sixteen (n % 16) (Nat.mod_lt n (by decide))

namespace Bytes

theorem length_hexDigits (content : Bytes) :
    (hexDigits content).length = 2 * content.length := by
  induction content with
  | nil =>
      rfl
  | cons byte rest inductionHypothesis =>
      simp only [hexDigits, List.flatMap_cons, List.length_append,
        List.length_cons, List.length_nil] at inductionHypothesis ⊢
      omega

/-- The digit of a half of a byte has it as its value. -/
theorem hexValue?_hexDigit (n : Nat) :
    hexValue? (hexDigit n) = some (n % 16) :=
  hexValue?_digitChar (n % 16) (Nat.mod_lt n (by decide))

/-- Bytes are read from their hex digits. -/
theorem ofHexDigits?_hexDigits (content : Bytes) :
    ofHexDigits? (hexDigits content) = some content := by
  induction content with
  | nil =>
      rfl
  | cons byte rest inductionHypothesis =>
      have isByte := byte.toNat_lt
      have halves :
          byte.toNat / 16 % 16 * 16 + byte.toNat % 16 = byte.toNat := by
        omega
      simp only [hexDigits] at inductionHypothesis
      simp only [hexDigits, List.flatMap_cons, List.cons_append,
        List.nil_append, ofHexDigits?, hexValue?_hexDigit, inductionHypothesis,
        Option.bind_eq_bind, Option.bind_some, halves, UInt8.ofNat_toNat]
      rfl

theorem toList_toMarkedHex (content : Bytes) :
    (toMarkedHex content).toList = '0' :: 'x' :: hexDigits content := by
  simp [toMarkedHex, toHex]

/-- What hex digits write depends on their values only. -/
theorem ofHexDigits?_congr
    {s t : List Char}
    (sameValues : s.map hexValue? = t.map hexValue?) :
    ofHexDigits? s = ofHexDigits? t := by
  induction s using ofHexDigits?.induct generalizing t with
  | case1 =>
      rw [List.map_eq_nil_iff.mp sameValues.symm]
  | case2 c =>
      obtain ⟨other, rest, rfl, _, noRest⟩ :=
        List.map_eq_cons_iff.mp sameValues.symm
      rw [List.map_eq_nil_iff.mp noRest]
      rfl
  | case3 high low rest inductionHypothesis =>
      obtain ⟨other, behind, rfl, sameHigh, sameBehind⟩ :=
        List.map_eq_cons_iff.mp sameValues.symm
      obtain ⟨next, others, rfl, sameLow, sameRest⟩ :=
        List.map_eq_cons_iff.mp sameBehind
      simp only [ofHexDigits?, sameHigh, sameLow,
        inductionHypothesis sameRest.symm]

/--
Whether digits write bytes, two hex digits of either letter case for each.
-/
def AreDigits
    (digits : List Char)
    (content : Bytes) :
    Prop :=
  digits.map Char.toLower = hexDigits content

/-- Whether a text writes bytes in hex digits behind a mark. -/
inductive Spells : String → Bytes → Prop where
  | marked
      {text : String}
      {content : Bytes}
      {mark : Char}
      {digits : List Char}
      (isMark : mark = 'x' ∨ mark = 'X')
      (isText : text.toList = '0' :: mark :: digits)
      (areDigits : AreDigits digits content) :
      Spells text content

variable {text : String} {content : Bytes} {digits : List Char}

/-- There are two digits for each byte. -/
theorem AreDigits.length_eq
    (areDigits : AreDigits digits content) :
    digits.length = 2 * content.length := by
  rw [← length_hexDigits, ← areDigits, List.length_map]

/-- Hex digits are read as the bytes that they write. -/
theorem AreDigits.ofHexDigits?_eq
    (areDigits : AreDigits digits content) :
    ofHexDigits? digits = some content := by
  rw [← ofHexDigits?_hexDigits content, ← areDigits]
  apply ofHexDigits?_congr
  rw [List.map_map]
  exact List.map_congr_left fun c _ => (hexValue?_toLower c).symm

/--
The hex digits of a byte string are digits of it, whatever the letter case of
each is.
-/
theorem areDigits_zipIdx
    {cased : Char → Nat → Char}
    (sameDigit : ∀ n place, (cased (hexDigit n) place).toLower = hexDigit n)
    (content : Bytes) :
    AreDigits ((hexDigits content).zipIdx.map fun pair => cased pair.1 pair.2)
      content := by
  rw [AreDigits, List.map_map]
  conv_rhs => rw [← List.zipIdx_map_fst 0 (hexDigits content)]
  refine List.map_congr_left fun pair isIn => ?_
  obtain ⟨byte, _, isDigit⟩ :=
    List.mem_flatMap.mp (List.fst_mem_of_mem_zipIdx isIn)
  simp only [List.mem_cons, List.not_mem_nil, or_false] at isDigit
  rcases isDigit with isUpper | isLower
  · simp only [Function.comp_apply, isUpper, sameDigit]
  · simp only [Function.comp_apply, isLower, sameDigit]

/-- The hex text of a byte string writes it. -/
theorem spells_toMarkedHex (content : Bytes) :
    Spells (toMarkedHex content) content := by
  have areDigits :=
    @areDigits_zipIdx (fun c _ => c) (fun n _ => (toLower_hexDigit n).1) content
  rw [List.zipIdx_map_fst] at areDigits
  exact .marked (.inl rfl) (toList_toMarkedHex content) areDigits

/-- A text that writes bytes is read as the bytes. -/
theorem Spells.ofHex?_eq
    (spells : Spells text content) :
    ofHex? text = some content := by
  obtain ⟨isMark, isText, areDigits⟩ := spells
  have isEven := Nat.mul_mod_right 2 content.length
  simp only [ofHex?, isText, dropHexMark_mark isMark, areDigits.length_eq,
    isEven, ↓reduceIte, areDigits.ofHexDigits?_eq]

theorem Spells.isEmpty_eq
    (spells : Spells text content) :
    text.isEmpty = false := by
  obtain ⟨-, isText, -⟩ := spells
  have notEmpty : text ≠ "" := by
    rintro rfl
    cases isText
  simpa [String.isEmpty_iff] using notEmpty

/-- The characters of hex digits have a value. -/
theorem AreDigits.isSome_hexValue?
    (areDigits : AreDigits digits content) :
    ∀ c ∈ digits, (hexValue? c).isSome := by
  intro c isIn
  have isLower : c.toLower ∈ hexDigits content :=
    areDigits ▸ List.mem_map_of_mem isIn
  obtain ⟨byte, _, isDigit⟩ := List.mem_flatMap.mp isLower
  simp only [List.mem_cons, List.not_mem_nil, or_false] at isDigit
  rcases isDigit with isUpper | isLower
  · rw [← hexValue?_toLower, isUpper, hexValue?_hexDigit]
    rfl
  · rw [← hexValue?_toLower, isLower, hexValue?_hexDigit]
    rfl

/-- No mark stands in front of hex digits. -/
theorem AreDigits.dropHexMark_eq
    (areDigits : AreDigits digits content) :
    dropHexMark digits = digits := by
  rcases dropHexMark_eq_or digits with isSame | ⟨mark, isMark, isText⟩
  · exact isSame
  · have isIn : mark ∈ digits := by
      rw [isText]
      simp
    have isSome := areDigits.isSome_hexValue? mark isIn
    rcases isMark with rfl | rfl <;> cases isSome

/-- Digits that are read as bytes write them. -/
theorem areDigits_of_ofHexDigits?
    (isRead : ofHexDigits? digits = some content) :
    AreDigits digits content := by
  induction digits using ofHexDigits?.induct generalizing content with
  | case1 =>
      cases isRead
      rfl
  | case2 c =>
      cases isRead
  | case3 high low rest inductionHypothesis =>
      simp only [ofHexDigits?, Option.bind_eq_bind, Option.bind_eq_some_iff]
        at isRead
      obtain ⟨upper, isUpper, lower, isLower, bytes, areBytes, isContent⟩ :=
        isRead
      obtain rfl := Option.some.inj isContent
      have isHigh := Numeral.isDigit_of_hexValue? isUpper
      have isLow := Numeral.isDigit_of_hexValue? isLower
      have upperSmall := isHigh.isSmall
      have lowerSmall := isLow.isSmall
      have isByte :
          (UInt8.ofNat (upper * 16 + lower)).toNat = upper * 16 + lower := by
        simp only [UInt8.toNat_ofNat']
        omega
      have isUpperDigit :
          hexDigit ((upper * 16 + lower) / 16) = Nat.digitChar upper := by
        rw [hexDigit]
        congr 1
        omega
      have isLowerDigit :
          hexDigit (upper * 16 + lower) = Nat.digitChar lower := by
        rw [hexDigit]
        congr 1
        omega
      have areRest : rest.map Char.toLower = hexDigits bytes :=
        inductionHypothesis areBytes
      change high.toLower :: low.toLower :: rest.map Char.toLower =
        hexDigit ((UInt8.ofNat (upper * 16 + lower)).toNat / 16) ::
          hexDigit (UInt8.ofNat (upper * 16 + lower)).toNat :: hexDigits bytes
      rw [isHigh.isChar, isLow.isChar, areRest, isByte, isUpperDigit,
        isLowerDigit]

end Bytes

namespace Address

variable {content : Bytes}

/-- A text that writes the bytes of an address is read as the address. -/
theorem ofText?_of_spells
    {text : String}
    (spells : Bytes.Spells text content)
    (isAddress : content.length = size) :
    ofText? text = some content := by
  obtain ⟨isMark, isText, areDigits⟩ := spells
  simp only [ofText?, isText, dropHexMark_mark isMark, areDigits.length_eq,
    isAddress, ↓reduceIte, areDigits.ofHexDigits?_eq]

/-- The checked text of an address writes it. -/
theorem spells_checksum
    (hash : Digest)
    (content : Bytes) :
    Bytes.Spells (checksum hash content) content := by
  have sameDigit (pattern n place : Nat) :
      (casedDigit pattern (hexDigit n) place).toLower = hexDigit n := by
    rw [casedDigit, apply_ite Char.toLower, (toLower_hexDigit n).1,
      (toLower_hexDigit n).2, ite_self]
  have isText :
      (checksum hash content).toList =
        '0' :: 'x' :: (Bytes.hexDigits content).zipIdx.map fun pair =>
          casedDigit (hash (asciiBytes (Bytes.hexDigits content))) pair.1
            pair.2 := by
    simp [checksum]
  exact .marked (.inl rfl) isText (Bytes.areDigits_zipIdx (sameDigit _) content)

/-- The checked text of an address is read as the address. -/
theorem ofText?_checksum
    (isAddress : content.length = size)
    (hash : Digest) :
    ofText? (checksum hash content) = some content :=
  ofText?_of_spells (spells_checksum hash content) isAddress

end Address

end EvmStorage
