import EvmStorage.Proofs.LargeElements
import EvmStorage.Proofs.PromisedPaths
import EvmStorage.Proofs.SameTypes

namespace EvmStorage

/-!
# Members outside their struct

A layout may assign to a member of a struct slots that are not among those of
the struct.  Whether it does is told by the number of words that are cut out
for the member, and so the struct is refused, with one exception: slots that
all lie below the first one are counted back from the last one, and a member
there is decoded from the words of others.
-/

section Between

variable {items : List α} {start count : Int}

/-- The number of items between any two positions. -/
theorem length_between_eq (items : List α) (start stop : Int) :
    (between items start stop).length =
      min (if stop < 0 then stop + items.length else stop).toNat items.length -
        (if start < 0 then start + items.length else start).toNat := by
  simp only [between, List.length_drop, List.length_take]

/--
Nothing is missing between positions that are both counted in the list, from
one of its ends.
-/
theorem le_length_between_iff
    (positive : 0 < count) :
    count ≤ (between items start (start + count)).length ↔
      (0 ≤ start ∧ start + count ≤ items.length) ∨
        (-items.length ≤ start ∧ start + count < 0) := by
  rw [length_between_eq]
  split <;> split <;> omega

/-- Positions that are not below zero are counted from the start. -/
theorem between_of_nonneg
    (countNonneg : 0 ≤ count)
    (startNonneg : 0 ≤ start) :
    between items start (start + count) =
      (items.drop start.toNat).take count.toNat := by
  have stopNonneg : ¬ start + count < 0 := by
    omega
  have isStop : (start + count).toNat = start.toNat + count.toNat := by
    omega
  simp only [between, not_lt.mpr startNonneg, stopNonneg, ↓reduceIte, isStop,
    List.drop_take, Nat.add_sub_cancel_left]

/-- Positions below zero are counted back from the end. -/
theorem between_of_neg
    (countNonneg : 0 ≤ count)
    (inside : -items.length ≤ start)
    (below : start + count < 0) :
    between items start (start + count) =
      (items.drop (start + items.length).toNat).take count.toNat := by
  have startBelow : start < 0 := by
    omega
  have isStop : (start + count + items.length).toNat =
      (start + items.length).toNat + count.toNat := by
    omega
  simp only [between, startBelow, below, ↓reduceIte, isStop, List.drop_take,
    Nat.add_sub_cancel_left]

end Between

/--
The span of a size is the exact one, or more slots than there can be words.
-/
theorem span_of_slotSpan
    {size span : Int}
    (positive : 0 < size)
    (isSpan : slotSpan size = .ok span) :
    span = exactSpan size ∨ greatestExactSize < size ∧ 2 ^ 48 ≤ span := by
  by_cases exact : size ≤ greatestExactSize
  · rw [slotSpan_eq positive.le exact] at isSpan
    exact .inl (Except.ok.inj isSpan).symm
  · right
    refine ⟨not_le.mp exact, ?_⟩
    simp only [greatestExactSize, not_le] at exact
    have isLarge : 2 ^ (53 + 0) ≤ roundTo53Bits size.natAbs :=
      le_roundTo53Bits (by omega)
    unfold slotSpan at isSpan
    dsimp only at isSpan
    rw [if_pos positive.le] at isSpan
    split at isSpan
    · cases isSpan
    · cases isSpan
      omega

namespace Variable

variable (member : Variable) (span : Int) (words : List Bytes)

/--
Whether so many slots, from the one of a member on, are among those of given
words.
-/
def LiesWithin : Prop :=
  0 ≤ member.slot ∧ member.slot + span ≤ words.length

/--
Whether so many slots lie below the first one, and no deeper than there are
words.
-/
def LiesBelow : Prop :=
  -words.length ≤ member.slot ∧ member.slot + span < 0

instance : Decidable (member.LiesWithin span words) :=
  inferInstanceAs (Decidable (_ ∧ _))

instance : Decidable (member.LiesBelow span words) :=
  inferInstanceAs (Decidable (_ ∧ _))

/-- The words of so many slots, counted from the first word. -/
def ownWords : List Bytes :=
  (words.drop member.slot.toNat).take span.toNat

/-- The words of so many slots, counted back from behind the last word. -/
def wordsFromEnd : List Bytes :=
  (words.drop (member.slot + words.length).toNat).take span.toNat

variable {member span words}

/--
As many words as a member needs are cut out for it exactly if its slots are
among those of the words, or below them and not too deep.

The number of slots is exact if the size is not rounded, or there are too few
words for a size that is.
-/
theorem span_le_length_between_iff
    {size : Int}
    (positive : 0 < size)
    (countable : size ≤ greatestExactSize ∨ words.length < 2 ^ 48)
    (isSpan : slotSpan size = .ok span) :
    span ≤ (between words member.slot (member.slot + span)).length ↔
      span = exactSpan size ∧
        (member.LiesWithin (exactSpan size) words ∨
          member.LiesBelow (exactSpan size) words) := by
  have spanPos := exactSpan_pos positive
  rcases span_of_slotSpan positive isSpan with rfl | ⟨isLarge, tooMany⟩
  · rw [le_length_between_iff spanPos]
    simp only [true_and, LiesWithin, LiesBelow]
  · have fewWords : words.length < 2 ^ 48 :=
      countable.resolve_left (not_le.mpr isLarge)
    have isLargeSpan : 2 ^ 48 < exactSpan size := by
      simp only [exactSpan, greatestExactSize] at isLarge ⊢
      omega
    rw [length_between_eq]
    constructor
    · intro enough
      omega
    · rintro ⟨-, within | below⟩
      · exact absurd within.2 (by have := within.1; omega)
      · exact absurd below.2 (by have := below.1; omega)

end Variable

namespace Decode

variable {hash : Digest} {layout : Layout} {words : List Bytes}
  {type : TypeEntry}
variable {member : Variable} {members : List Variable}

/--
Whether a value is decoded from the words of a member, or from others in their
place.
-/
inductive ReadsMember
    (hash : Digest)
    (layout : Layout)
    (words : List Bytes)
    (member : Variable)
    (memberType : TypeEntry)
    (found : Value) :
    Prop where
  | own
      (within : member.LiesWithin (exactSpan memberType.size) words)
      (isFound :
        value hash layout
          (member.ownWords (exactSpan memberType.size) words) member.offset
          memberType = .ok found) :
      ReadsMember hash layout words member memberType found
  | fromEnd
      (below : member.LiesBelow (exactSpan memberType.size) words)
      (isFound :
        value hash layout
          (member.wordsFromEnd (exactSpan memberType.size) words) member.offset
          memberType = .ok found) :
      ReadsMember hash layout words member memberType found

/--
A member is passed over because it lies elsewhere, or is decoded from its own
words or from others in their place.
-/
theorem cases_of_memberWith
    {decoded next : List (Value × Value)}
    (positive :
      ∀ memberType,
        layout.lookup member.type = .ok memberType → 0 < memberType.size)
    (countable : layout.HasExactSize member.type ∨ words.length < 2 ^ 48)
    (isNext :
      memberWith (valueWithin hash layout layout.depth) layout words type
        decoded member =
        .ok next) :
    ∃ memberType,
      layout.lookup member.type = .ok memberType ∧
        (storedElsewhere layout memberType = .ok true ∧ next = decoded ∨
          storedElsewhere layout memberType = .ok false ∧
            ∃ found,
              ReadsMember hash layout words member memberType found ∧
                next = Value.setMember member.label found decoded) := by
  unfold memberWith at isNext
  obtain ⟨memberType, isType, isNext⟩ := Outcome.bind_eq_ok_iff.mp isNext
  obtain ⟨elsewhere, isElsewhere, isNext⟩ := Outcome.bind_eq_ok_iff.mp isNext
  refine ⟨memberType, isType, ?_⟩
  cases elsewhere with
  | true =>
      cases isNext
      exact .inl ⟨isElsewhere, rfl⟩
  | false =>
      obtain ⟨span, isSpan, isNext⟩ := Outcome.bind_eq_ok_iff.mp isNext
      dsimp only at isNext
      split at isNext
      · cases isNext
      · next enough =>
          obtain ⟨found, isFound, isNext⟩ := Outcome.bind_eq_ok_iff.mp isNext
          split at isNext
          · cases isNext
            refine .inr ⟨isElsewhere, found, ?_, rfl⟩
            have sizePos := positive memberType isType
            have spanPos := exactSpan_pos sizePos
            have isExact :=
              countable.imp_left fun exact => (exact memberType isType).2
            obtain ⟨rfl, within | below⟩ :=
              (Variable.span_le_length_between_iff sizePos isExact isSpan).mp
                (not_lt.mp enough)
            · rw [between_of_nonneg spanPos.le within.1] at isFound
              exact .own within isFound
            · rw [between_of_neg spanPos.le below.1 below.2] at isFound
              exact .fromEnd below isFound
          · cases isNext

/--
Whether an entry of a decoded struct has a value that was read for a member of
its label.
-/
def IsReadEntry
    (hash : Digest)
    (layout : Layout)
    (words : List Bytes)
    (members : List Variable)
    (entry : Value × Value) :
    Prop :=
  ∃ member ∈ members, ∃ memberType,
    layout.lookup member.type = .ok memberType ∧
      storedElsewhere layout memberType = .ok false ∧
      entry.1.sameLabel member.label ∧
      ReadsMember hash layout words member memberType entry.2

/-- What a returned struct holds was read for its members. -/
theorem isReadEntry_of_struct
    {result : List (Value × Value)}
    (positive : ∀ type ∈ layout.types, 0 < type.size)
    (countable :
      (∀ member ∈ members, layout.HasExactSize member.type) ∨
        words.length < 2 ^ 48)
    (hasMembers : type.members = some members)
    (isResult : struct hash layout words type = .ok result) :
    ∀ entry ∈ result, IsReadEntry hash layout words members entry := by
  have keeps :
      ∀ decoded,
        (∀ entry ∈ decoded, IsReadEntry hash layout words members entry) →
        ∀ member ∈ members, ∀ next,
          memberWith (valueWithin hash layout layout.depth) layout words type
            decoded member =
            .ok next →
          ∀ entry ∈ next, IsReadEntry hash layout words members entry := by
    intro decoded wereRead member isMember next isNext entry isEntry
    have sizePos (memberType)
        (found : layout.lookup member.type = .ok memberType) :=
      positive memberType (Layout.mem_types_of_lookup found)
    obtain ⟨memberType, found, ⟨-, rfl⟩ | ⟨inPlace, value, reads, rfl⟩⟩ :=
      cases_of_memberWith sizePos
        (countable.imp_left fun exact => exact member isMember) isNext
    · exact wereRead entry isEntry
    · rcases Value.mem_setMember isEntry with ⟨sameLabel, isValue⟩ | wasThere
      · exact ⟨member, isMember, memberType, found, inPlace, sameLabel,
          isValue ▸ reads⟩
      · exact wereRead entry wasThere
  simp only [struct, structWith, hasMembers] at isResult
  exact Outcome.holds_of_foldlM_eq_ok isResult (by simp) keeps

/--
For every member of a returned struct that does not lie elsewhere, a value was
read.
-/
theorem exists_readsMember_of_struct
    {memberType : TypeEntry}
    {result : List (Value × Value)}
    (positive : ∀ type ∈ layout.types, 0 < type.size)
    (countable :
      (∀ member ∈ members, layout.HasExactSize member.type) ∨
        words.length < 2 ^ 48)
    (hasMembers : type.members = some members)
    (isResult : struct hash layout words type = .ok result)
    (isMember : member ∈ members)
    (found : layout.lookup member.type = .ok memberType)
    (inPlace : storedElsewhere layout memberType = .ok false) :
    ∃ value, ReadsMember hash layout words member memberType value := by
  simp only [struct, structWith, hasMembers] at isResult
  obtain ⟨decoded, next, isNext⟩ :=
    Outcome.exists_step_of_foldlM_eq_ok isResult isMember
  have sizePos (memberType)
      (found : layout.lookup member.type = .ok memberType) :=
    positive memberType (Layout.mem_types_of_lookup found)
  obtain ⟨other, isOther, isRead⟩ :=
    cases_of_memberWith sizePos
      (countable.imp_left fun exact => exact member isMember) isNext
  obtain rfl := Except.ok.inj (found.symm.trans isOther)
  rcases isRead with ⟨isElsewhere, -⟩ | ⟨-, value, reads, -⟩
  · exact absurd
      (Except.ok.inj (inPlace.symm.trans isElsewhere)) Bool.false_ne_true
  · exact ⟨value, reads⟩

end Decode

/-- The types of a layout, without its variables. -/
def Layout.typesAlone (layout : Layout) : Layout :=
  { layout with stateVariables := [] }

/-- Without the variables of a layout its types stay the same. -/
theorem Layout.sameTypes_typesAlone (layout : Layout) :
    layout.typesAlone.SameTypes layout where
  find?_eq _ := rfl
  length_eq := rfl

namespace Decode

variable {layout : Layout} {words : List Bytes} {type : TypeEntry}
  {members : List Variable}

/--
A struct is refused if the slots of a member that does not lie elsewhere are not
among its words, unless they all lie below the first and can be counted back
from the last.  The refusal is reported if the types are as decoding relies on.

So every value of a returned struct is decoded from the words of the slots of a
member of its label, or from those that are found by counting back.
-/
theorem struct_refuses_outside
    (hash : Digest)
    (acyclic : layout.Acyclic)
    (positive : ∀ type ∈ layout.types, 0 < type.size)
    (inTable : type ∈ layout.types)
    (hasMembers : type.members = some members)
    (wholeWords : ∀ word ∈ words, word.length = slotSize)
    (countable :
      (∀ member ∈ members, layout.HasExactSize member.type) ∨
        words.length < 2 ^ 48) :
    (∀ member ∈ members, ∀ memberType,
        layout.lookup member.type = .ok memberType →
        storedElsewhere layout memberType = .ok false →
        ¬ member.LiesWithin (exactSpan memberType.size) words →
        ¬ member.LiesBelow (exactSpan memberType.size) words →
        ∃ fault,
          struct hash layout words type = .error fault ∧
            (layout.typesAlone.Textual → layout.typesAlone.Regular →
              fault.isReported)) ∧
      ∀ result,
        struct hash layout words type = .ok result →
        ∀ entry ∈ result, IsReadEntry hash layout words members entry := by
  refine ⟨fun member isMember memberType found inPlace notWithin notBelow => ?_,
    fun result isResult =>
      isReadEntry_of_struct positive countable hasMembers isResult⟩
  cases isDecoded : struct hash layout words type with
  | ok result =>
      obtain ⟨value, reads⟩ :=
        exists_readsMember_of_struct positive countable hasMembers isDecoded
          isMember found inPlace
      cases reads with
      | own within =>
          exact absurd within notWithin
      | fromEnd below =>
          exact absurd below notBelow
  | error fault =>
      refine ⟨fault, rfl, fun textual regular => ?_⟩
      have acyclicAlone : layout.typesAlone.Acyclic := acyclic
      have inTableAlone : type ∈ layout.typesAlone.types := inTable
      have keeps :=
        @keeps_struct hash layout.typesAlone type words textual regular
          acyclicAlone inTableAlone
          (fun part isPart =>
            keepsPromise textual regular acyclicAlone isPart.mem_types)
          wholeWords
      rw [layout.sameTypes_typesAlone.struct_eq, isDecoded] at keeps
      cases keeps with
      | error isReported =>
          exact isReported

end Decode

section Box

open Contract (plainType reportedType reportedVariable slotVariable)

/--
A report of a struct of two slots, with an owner of some size and with given
members.
-/
def boxReport
    (ownerSize : Int)
    (members : List (String × String × Int)) :
    Value :=
  .record [
    ("storage", .list []),
    ("types", .record [
      reportedType "word" "inplace" "uint256" 32 [],
      reportedType "owner" "inplace" "address" ownerSize [],
      reportedType "pair" "inplace" "struct Pair" 64
        [("members",
          .list [reportedVariable "low" "word" 0,
            reportedVariable "high" "word" 1])],
      reportedType "box" "inplace" "struct Box" 64
        [("members", .list (members.map fun (label, type, slot) =>
          reportedVariable label type slot))]])]

/-- The struct of two slots, with given members. -/
def boxType (members : List (String × String × Int)) : TypeEntry :=
  { plainType "box" "struct Box" 64 with
    members := some (members.map fun (label, type, slot) =>
      slotVariable label type slot) }

/-- The layout of the report. -/
def boxLayout
    (ownerSize : Int)
    (members : List (String × String × Int)) :
    Layout where
  stateVariables := []
  types := [
    plainType "word" "uint256" 32,
    plainType "owner" "address" ownerSize,
    { plainType "pair" "struct Pair" 64 with
      members := some [slotVariable "low" "word" 0,
        slotVariable "high" "word" 1] },
    boxType members]

/-- The words of two slots. -/
def boxWords : List Bytes :=
  [Word.ofNat 1, Word.ofNat 2]

/--
A pair that begins in the last slot of its struct goes beyond it, which is
reported.
-/
theorem struct_refuses_latePair :
    ∃ fault,
      Decode.struct Keccak.digest
        (boxLayout 20 [("owner", "owner", 0), ("pair", "pair", 1)])
          boxWords (boxType [("owner", "owner", 0), ("pair", "pair", 1)]) =
            .error fault ∧
        fault.isReported := by
  obtain ⟨refused, -⟩ :=
    @Decode.struct_refuses_outside
      (boxLayout 20 [("owner", "owner", 0), ("pair", "pair", 1)])
      boxWords (boxType [("owner", "owner", 0), ("pair", "pair", 1)]) _
        Keccak.digest
      (by decide +kernel) (by decide +kernel) (by decide +kernel) rfl
        (by decide +kernel)
      (.inr (by decide))
  obtain ⟨fault, isFault, isReported⟩ :=
    refused (slotVariable "pair" "pair" 1) (by decide)
      { plainType "pair" "struct Pair" 64 with
        members := some [slotVariable "low" "word" 0,
          slotVariable "high" "word" 1] }
      (Outcome.eq_ok_of_toOption (by decide +kernel))
      (Outcome.eq_ok_of_toOption (by decide +kernel))
      (by decide) (by decide)
  exact ⟨fault, isFault, isReported (by decide +kernel) (by decide +kernel)⟩

/--
A member below the first slot, and one behind the last after an owner of one
byte.
-/
def ghostMembers : List (Int × List (String × String × Int)) :=
  [(20, [("first", "word", 0), ("ghost", "word", -2)]),
    (1, [("owner", "owner", 0), ("late", "word", 2)])]

/--
Members that are not among the slots of their struct, in reports that are
accepted: one below the first slot is decoded from the word of another member,
and one behind the last is not told of if a member before it does not fit.
-/
theorem struct_of_ghostMembers :
    (∀ box ∈ ghostMembers,
        Layout.ofReport (boxReport box.1 box.2) = .ok (boxLayout box.1 box.2) ∧
          (boxLayout box.1 box.2).Acyclic ∧
          ∀ type ∈ (boxLayout box.1 box.2).types, 0 < type.size) ∧
      ¬ (slotVariable "ghost" "word" (-2)).LiesWithin (exactSpan 32) boxWords ∧
      Decode.struct Keccak.digest
        (boxLayout 20 [("first", "word", 0), ("ghost", "word", -2)])
          boxWords (boxType [("first", "word", 0), ("ghost", "word", -2)]) =
        .ok [(.text "first", .int 1), (.text "ghost", .int 1)] ∧
      ¬ (slotVariable "late" "word" 2).LiesWithin (exactSpan 32) boxWords ∧
      Outcome.isPromised
          (Decode.struct Keccak.digest
            (boxLayout 1 [("owner", "owner", 0), ("late", "word", 2)])
            boxWords (boxType [("owner", "owner", 0), ("late", "word", 2)])) =
              false := by
  refine
    ⟨?_, by decide, Outcome.eq_ok_of_toOption (by decide +kernel), by decide,
    by decide +kernel⟩
  have accepted :
      ∀ box ∈ ghostMembers,
        (Layout.ofReport (boxReport box.1 box.2)).toOption =
          some (boxLayout box.1 box.2) ∧
          (boxLayout box.1 box.2).Acyclic ∧
          ∀ type ∈ (boxLayout box.1 box.2).types, 0 < type.size := by
    decide +kernel
  exact fun box isBox =>
    ⟨Outcome.eq_ok_of_toOption (accepted box isBox).1, (accepted box isBox).2⟩

end Box

end EvmStorage
