import EvmStorage.HandleCache
import EvmStorage.Proofs.KeyMeaning
import EvmStorage.Proofs.WrittenDocuments

namespace EvmStorage

/-!
# What handles are found by

A handle is found by the checked text of an address and the canonical text of
a description.  The first tells the bytes of the address, however it was given,
and the second tells the description up to the order of its names; so handles
are found by one key exactly if they were asked for by the same address and
the same description.
-/

namespace Address

/--
The addresses that values denote: hex digits of either letter case, with a mark
in front or without one, the bytes themselves, and numbers of forty hex digits.
-/
inductive Denotes : Value → Bytes → Prop where
  | digits
      {text : String}
      {content : Bytes}
      (areDigits : Bytes.AreDigits text.toList content)
      (isAddress : content.length = size) :
      Denotes (.text text) content
  | marked
      {text : String}
      {content : Bytes}
      (spells : Bytes.Spells text content)
      (isAddress : content.length = size) :
      Denotes (.text text) content
  | bytes
      {content : Bytes}
      (isAddress : content.length = size) :
      Denotes (.bytes content) content
  | number
      {n : Nat}
      (fortyDigits : 16 ^ 39 ≤ n ∧ n < 16 ^ 40) :
      Denotes (.int n) (Bytes.ofNat size n)

variable {value : Value} {content : Bytes}

/-- A denoted address has twenty bytes. -/
theorem Denotes.length_eq
    (denotes : Denotes value content) :
    content.length = size := by
  cases denotes with
  | digits _ isAddress =>
      exact isAddress
  | marked _ isAddress =>
      exact isAddress
  | bytes isAddress =>
      exact isAddress
  | number _ =>
      exact Bytes.length_ofNat size _

/-- A text is read as an address exactly if it writes its bytes. -/
theorem ofText?_eq_some_iff
    {text : String} :
    ofText? text = some content ↔ Denotes (.text text) content := by
  constructor
  · intro isRead
    have isAddress := length_of_ofText? isRead
    simp only [ofText?] at isRead
    split at isRead
    · have areDigits := Bytes.areDigits_of_ofHexDigits? isRead
      rcases dropHexMark_eq_or text.toList with noMark | ⟨mark, isMark, isText⟩
      · rw [noMark] at areDigits
        exact .digits areDigits isAddress
      · exact .marked (.marked isMark isText areDigits) isAddress
    · cases isRead
  · intro denotes
    cases denotes with
    | digits areDigits isAddress =>
        simp only [ofText?, areDigits.dropHexMark_eq, areDigits.length_eq,
          isAddress, ↓reduceIte, areDigits.ofHexDigits?_eq]
    | marked spells isAddress =>
        exact ofText?_of_spells spells isAddress

/-- A value is accepted as an address exactly if it denotes one. -/
theorem ofValue_eq_ok_iff :
    ofValue value = .ok content ↔ Denotes value content := by
  cases value with
  | text s =>
      have isRead :
          ofValue (.text s) = .ok content ↔ ofText? s = some content := by
        cases isFound : ofText? s <;> simp [ofValue, isFound]
      exact isRead.trans ofText?_eq_some_iff
  | bytes other =>
      have isRead :
          ofValue (.bytes other) = .ok content ↔
            ofBytes? other = some content := by
        cases isFound : ofBytes? other <;> simp [ofValue, isFound]
      rw [isRead, ofBytes?, Option.ite_none_right_eq_some, Option.some.injEq]
      constructor
      · rintro ⟨isAddress, rfl⟩
        exact .bytes isAddress
      · intro denotes
        cases denotes with
        | bytes isAddress =>
            exact ⟨isAddress, rfl⟩
  | int n =>
      have isRead :
          ofValue (.int n) = .ok content ↔ ofInt? n = some content := by
        cases isFound : ofInt? n <;> simp [ofValue, isFound]
      have bounds : Int.pow 16 (2 * size - 1) = ((16 ^ 39 : Nat) : Int) ∧
          Int.pow 16 (2 * size) = ((16 ^ 40 : Nat) : Int) := by
        decide +kernel
      rw [isRead, ofInt?, Option.ite_none_right_eq_some, Option.some.injEq,
        bounds.1, bounds.2]
      constructor
      · rintro ⟨⟨atLeast, below⟩, rfl⟩
        obtain ⟨m, rfl⟩ := Int.eq_ofNat_of_zero_le (a := n) (by omega)
        exact .number ⟨by exact_mod_cast atLeast, by exact_mod_cast below⟩
      · intro denotes
        cases denotes with
        | number fortyDigits =>
            refine ⟨⟨?_, ?_⟩, rfl⟩
            · exact_mod_cast fortyDigits.1
            · exact_mod_cast fortyDigits.2
  | null | bool | float | list | record | struct =>
      refine iff_of_false (by simp [ofValue]) fun denotes => ?_
      cases denotes

/-- A value denotes one address. -/
theorem Denotes.unique
    {other : Bytes}
    (denotes : Denotes value content)
    (alsoDenotes : Denotes value other) :
    content = other :=
  Except.ok.inj
    ((ofValue_eq_ok_iff.mpr denotes).symm.trans
      (ofValue_eq_ok_iff.mpr alsoDenotes))

/-- Whether two values denote the same address. -/
def SameAddress (value other : Value) : Prop :=
  ∃ content, Denotes value content ∧ Denotes other content

/-- The checked text tells the address. -/
theorem checksum_inj
    {hash : Digest}
    {other : Bytes}
    (isAddress : content.length = size)
    (alsoAddress : other.length = size)
    (sameText : checksum hash content = checksum hash other) :
    content = other := by
  have isRead := ofText?_checksum isAddress hash
  rw [sameText, ofText?_checksum alsoAddress hash] at isRead
  exact (Option.some.inj isRead).symm

end Address

namespace HandleCache

open Address (SameAddress)
open Json (IsDocument SameDocument)

variable {hash : Digest}
  {address otherAddress description otherDescription : Value}
variable {key otherKey : HandleKey}

/--
What there is a key for: an address, and a description that can be written.
-/
theorem keyOf_eq_ok_iff :
    keyOf hash address description = .ok key ↔
      ∃ content,
        Address.Denotes address content ∧
          description.canShow ∧
          key = { address := Address.checksum hash content
                  canonical := Json.write description } := by
  rw [keyOf, Outcome.bind_eq_ok_iff]
  simp only [Address.ofValue_eq_ok_iff]
  refine exists_congr fun content => and_congr_right fun _ => ?_
  split
  · next canShow =>
      simp [canShow, eq_comm]
  · next cannotShow =>
      simp [cannotShow]

/--
The keys of documents are equal exactly if the addresses and the documents are
the same.
-/
theorem keyOf_eq_iff
    (isKey : keyOf hash address description = .ok key)
    (isOther : keyOf hash otherAddress otherDescription = .ok otherKey)
    (isDocument : IsDocument description)
    (alsoDocument : IsDocument otherDescription) :
    key = otherKey ↔
      SameAddress address otherAddress ∧
        SameDocument description otherDescription := by
  obtain ⟨content, denotes, canShow, rfl⟩ := keyOf_eq_ok_iff.mp isKey
  obtain ⟨other, otherDenotes, otherCanShow, rfl⟩ := keyOf_eq_ok_iff.mp isOther
  rw [HandleKey.mk.injEq,
    Json.write_eq_iff isDocument alsoDocument canShow otherCanShow]
  refine and_congr_left fun _ => ⟨fun sameText => ?_, ?_⟩
  · have sameContent :=
      Address.checksum_inj denotes.length_eq otherDenotes.length_eq sameText
    exact ⟨content, denotes, sameContent ▸ otherDenotes⟩
  · rintro ⟨same, isSame, alsoSame⟩
    rw [denotes.unique isSame, otherDenotes.unique alsoSame]

end HandleCache

end EvmStorage
