import EvmStorage.Command.SlotCalculator
import EvmStorage.Proofs.KeyText
import EvmStorage.Proofs.LargeElements

namespace EvmStorage

/-!
# Printed slots of array elements

The calculator prints the slot of an element of an array as the first slot of
the elements and the index, added up.  A step to the element counts slots
modulo their number, and the calculator does not: what it prints for an element
behind the last slot has a digit more than the others and is no slot.
-/

namespace Numeral

variable {base n m : Nat} {digits : List Char}

/-- A number is read from its decimal text where a mark may tell the base. -/
theorem read?_marked_toString
    {n : Int}
    (nonneg : 0 ≤ n)
    (canWrite : Value.canWriteInt n) :
    read? .marked (toString n).toList = some n := by
  have short := of_decide_eq_true canWrite
  rw [Value.writableBound_eq] at short
  have isText : (toString n).toList = Nat.toDigits 10 n.natAbs := by
    rw [toList_toString, if_neg (not_lt.mpr nonneg), List.nil_append]
  rw [isText, read?_marked_toDigits short, Int.natAbs_of_nonneg nonneg]

end Numeral

/--
The step to an element of one word leads as many slots on as the index tells.
-/
theorem Position.step_index_of_word
    {hash : Digest}
    {layout : Layout}
    {position : Position}
    {type : TypeEntry}
    {index : Int}
    (onType : layout.lookup position.type = .ok type)
    (isDynamicArray : type.isDynamicArray)
    (hasSize : layout.sizeOf (type.base.getD .null) = .ok 32)
    (inside : inSlotSpace position.slot)
    (nonneg : 0 ≤ index) :
    position.step hash layout (.index (.int index)) =
      .ok (position.elementBehind type
        (hash (Word.ofNat position.slot.toNat)) index) := by
  have isIndex : readIndex (.int index) = .ok index :=
    readIndex_int_eq_ok_iff.mpr ⟨nonneg, rfl⟩
  have bounded : 32 * 1 < spanBound := by
    decide +kernel
  have kept : roundTo53Bits 1 = 1 := by
    decide
  have hasSize : layout.sizeOf (type.base.getD .null) = .ok (32 * (1 : Nat)) :=
    hasSize
  rw [step_index_eq onType inside hasSize (by decide) isIndex
    (.dynamic isDynamicArray), if_pos bounded, kept, Nat.cast_one, mul_one]

namespace Command

/-- The texts that write a number in so many hex digits behind their mark. -/
inductive WritesHex : String → Nat → Nat → Prop where
  | digits
      {text : String}
      {digits : List Char}
      {n : Nat}
      (isText : text.toList = '0' :: 'x' :: digits)
      (writes : Numeral.Writes 16 digits n) :
      WritesHex text digits.length n

/-- A text has one number of hex digits. -/
theorem WritesHex.count_unique
    {text : String}
    {count other n m : Nat}
    (writes : WritesHex text count n)
    (alsoWrites : WritesHex text other m) :
    count = other := by
  obtain ⟨isText, -⟩ := writes
  obtain ⟨alsoIsText, -⟩ := alsoWrites
  rw [isText] at alsoIsText
  rw [List.cons.inj (List.cons.inj alsoIsText).2 |>.2]

/--
A number is printed in as many digits as it needs, and in no fewer than 64.
-/
theorem writesHex_wideHex
    {n : Int}
    (nonneg : 0 ≤ n) :
    WritesHex (wideHex n)
      (max 64 (Nat.toDigits 16 n.toNat).length) n.toNat := by
  have sameNumber : n.natAbs = n.toNat := by
    omega
  have writes :=
    (Numeral.writes_toDigits (by decide : 1 < 16) le_rfl n.toNat).leftpad
      (by decide) 64
  have isText :
      (wideHex n).toList = '0' :: 'x' :: Text.hexPadded 64 n.toNat := by
    simp [wideHex, not_lt.mpr nonneg, paddedHex, sameNumber]
  have printed := WritesHex.digits isText writes
  rwa [Text.hexPadded, List.length_leftpad] at printed

/-- The number of a slot is printed in 64 digits. -/
theorem writesHex_of_lt
    {n : Int}
    (nonneg : 0 ≤ n)
    (below : n < slotModulus) :
    WritesHex (wideHex n) 64 n.toNat := by
  have few : (Nat.toDigits 16 n.toNat).length ≤ 64 := by
    rw [Nat.length_toDigits_le_iff (by decide) (by decide)]
    have isModulus : slotModulus = (16 ^ 64 : Nat) := by
      decide
    omega
  have printed := writesHex_wideHex nonneg
  rwa [max_eq_left few] at printed

/--
A number behind the last slot, but not behind it twice as many, is printed in
65 digits.
-/
theorem writesHex_of_le
    {n : Int}
    (behind : slotModulus ≤ n)
    (bounded : n < 2 * slotModulus) :
    WritesHex (wideHex n) 65 n.toNat := by
  have isModulus : slotModulus = (16 ^ 64 : Nat) := by
    decide
  have atMost : (Nat.toDigits 16 n.toNat).length ≤ 65 := by
    rw [Nat.length_toDigits_le_iff (by decide) (by decide)]
    omega
  have more : ¬ (Nat.toDigits 16 n.toNat).length ≤ 64 := by
    rw [Nat.length_toDigits_le_iff (by decide) (by decide)]
    omega
  have printed := writesHex_wideHex (by omega : 0 ≤ n)
  rwa [show max 64 (Nat.toDigits 16 n.toNat).length = 65 by omega] at printed

namespace SlotCalculator

variable {hash : Digest} {slotText indexText : String} {slot index start : Int}

/-- Enough arguments behind the option of arrays are those of an array. -/
theorem run_arrayOption
    (slotText : String)
    (further : List String) :
    run hash ("--array" :: slotText :: further) =
      array hash slotText further.head? := by
  simp [run, needsUsage]

/--
For a slot and an index that are read, the lines of the array and of the
element are printed.
-/
theorem run_array
    (further : List String)
    (slotRead : Numeral.read? .marked slotText.toList = some slot)
    (indexRead : Numeral.read? .marked indexText.toList = some index)
    (isStart : dataSlot hash slot = .ok start)
    (canWrite : Value.canWriteInt index) :
    run hash ("--array" :: slotText :: indexText :: further) =
      { output :=
          lines (arrayLines slot start) ++ lines [elementLine start index]
        ending := .ok 0 } := by
  rw [run_arrayOption]
  simp only [List.head?_cons, array, integer, slotRead, indexRead, isStart,
    Outcome.ok_bind, Option.mapM_some, shownInteger, canWrite]
  rfl

/--
The calculator prints the slot that a step to the element leads to, in 64 hex
digits, exactly if the element is not behind the last slot.

What is printed for an element behind the last slot is greater by the number of
slots, and has 65 digits.
-/
theorem run_array_element
    {layout : Layout}
    {position : Position}
    {type : TypeEntry}
    (further : List String)
    (isWord : ∀ message, hash message < 2 ^ 256)
    (onType : layout.lookup position.type = .ok type)
    (isDynamicArray : type.isDynamicArray)
    (hasSize : layout.sizeOf (type.base.getD .null) = .ok 32)
    (slotInside : inSlotSpace position.slot)
    (indexInside : inSlotSpace index)
    (slotRead : Numeral.read? .marked slotText.toList = some position.slot)
    (indexRead : Numeral.read? .marked indexText.toList = some index) :
    ∃ start,
      dataSlot hash position.slot = .ok start ∧
        position.step hash layout (.index (.int index)) =
          .ok { position with
                slot := (start + index) % slotModulus
                offset := 0
                type := type.base.getD .null } ∧
        run hash ("--array" :: slotText :: indexText :: further) =
          { output :=
              lines (arrayLines position.slot start) ++
                lines [elementLine start index]
            ending := .ok 0 } ∧
        (WritesHex (wideHex (start + index)) 64
          ((start + index) % slotModulus).toNat ↔
          start + index < slotModulus) ∧
        (slotModulus ≤ start + index →
          WritesHex (wideHex (start + index)) 65
            (slotModulus + (start + index) % slotModulus).toNat) := by
  obtain ⟨nonneg, below⟩ := inSlotSpace_iff.mp indexInside
  have isStart := @dataSlot_eq hash position.slot slotInside
  have canWrite : Value.canWriteInt index := by
    apply Value.canWriteInt_of_le nonneg
    simp only [slotModulus, Int.pow_eq] at below
    omega
  have startBelow :
      (hash (Word.ofNat position.slot.toNat) : Int) < slotModulus := by
    have := isWord (Word.ofNat position.slot.toNat)
    simp only [slotModulus, Int.pow_eq]
    omega
  refine ⟨_, isStart,
    Position.step_index_of_word onType isDynamicArray hasSize slotInside nonneg,
    run_array further slotRead indexRead isStart canWrite, ⟨?_, ?_⟩, ?_⟩
  · intro printed
    by_contra behind
    have more := writesHex_of_le (not_lt.mp behind) (by omega)
    exact absurd (printed.count_unique more) (by decide)
  · intro inside
    rw [Int.emod_eq_of_lt (by omega) inside]
    exact writesHex_of_lt (by omega) inside
  · intro behind
    have once :
        slotModulus +
          (hash (Word.ofNat position.slot.toNat) + index) % slotModulus =
          hash (Word.ofNat position.slot.toNat) + index := by
      rw [← Int.sub_emod_right, Int.emod_eq_of_lt (by omega) (by omega)]
      omega
    rw [once]
    exact writesHex_of_le behind (by omega)

/-- An array of words at a slot. -/
def wordsAt (slot : Int) : Position where
  slot := slot
  offset := 0
  type := .text "many"
  address := "0x00"
  block := .text "latest"

/--
The slot and the index may be written in any base, and what follows them
changes nothing.
-/
theorem run_of_markedTexts :
    ∃ start,
      dataSlot Keccak.digest 16 = .ok start ∧
        (wordsAt 16).step Keccak.digest Contract.arrays.layout
          (.index (.int 255)) =
          .ok
            { wordsAt 16 with
              slot := (start + 255) % slotModulus
              type := .text "word" } ∧
        run Keccak.digest ["--array", " 0x1_0", "0b11111111", "12"] =
          { output :=
              lines (arrayLines 16 start) ++ lines [elementLine start 255]
            ending := .ok 0 } ∧
        (WritesHex (wideHex (start + 255)) 64
          ((start + 255) % slotModulus).toNat ↔
          start + 255 < slotModulus) := by
  obtain ⟨start, isStart, isStep, printed, inside, -⟩ :=
    @run_array_element Keccak.digest " 0x1_0" "0b11111111" 255
      Contract.arrays.layout
      (wordsAt 16) Contract.manyType ["12"] Keccak.digest_lt
      (Outcome.eq_ok_of_toOption (by decide +kernel)) rfl
      (Outcome.eq_ok_of_toOption (by decide +kernel)) (by decide) (by decide)
      (by decide +kernel) (by decide +kernel)
  exact ⟨start, isStart, isStep, printed, inside⟩

/--
For the array at the first slot and the last index, a number of 65 digits is
printed where the step leads to a slot, whose number has 64.
-/
theorem run_of_lastIndex :
    ∃ start,
      dataSlot Keccak.digest 0 = .ok start ∧
        (wordsAt 0).step Keccak.digest Contract.arrays.layout
          (.index (.int (slotModulus - 1))) =
          .ok { wordsAt 0 with
                slot := (start + (slotModulus - 1)) % slotModulus,
                  type := .text "word" } ∧
        wideHex ((start + (slotModulus - 1)) % slotModulus) =
          "0x290decd9548b62a8d60345a988386fc84ba6bc95484008f6362f93160ef3e562" ∧
        run Keccak.digest ["--array", toString (0 : Int),
          toString (slotModulus - 1)] =
          { output :=
              lines (arrayLines 0 start) ++
                lines [elementLine start (slotModulus - 1)]
            ending := .ok 0 } ∧
        wideHex (start + (slotModulus - 1)) =
          "0x1290decd9548b62a8d60345a988386fc84ba6bc95484008f6362f93160ef3e562" := by
  have isDigest :
      Keccak.digest (Word.ofNat 0) =
        0x290decd9548b62a8d60345a988386fc84ba6bc95484008f6362f93160ef3e563 := by
    decide +kernel
  have isStart :
      dataSlot Keccak.digest 0 = .ok (Keccak.digest (Word.ofNat 0) : Int) :=
    dataSlot_eq (by decide)
  have isStep :=
    @Position.step_index_of_word Keccak.digest Contract.arrays.layout
      (wordsAt 0)
      Contract.manyType (slotModulus - 1)
        (Outcome.eq_ok_of_toOption (by decide +kernel)) rfl
      (Outcome.eq_ok_of_toOption (by decide +kernel)) (by decide) (by decide)
  have canWrite {n : Int} (nonneg : 0 ≤ n) (below : n ≤ 2 ^ 256) :
      Value.canWriteInt n :=
    Value.canWriteInt_of_le nonneg below
  have zeroRead :=
    Numeral.read?_marked_toString le_rfl (canWrite le_rfl (by decide))
  have lastRead :=
    @Numeral.read?_marked_toString (slotModulus - 1) (by decide)
      (canWrite (by decide) (by decide))
  have printed :=
    run_array [] zeroRead lastRead isStart (canWrite (by decide) (by decide))
  refine ⟨_, isStart, isStep, ?_, printed, ?_⟩
  · rw [isDigest]
    decide +kernel
  · rw [isDigest]
    decide +kernel

end SlotCalculator

end Command

end EvmStorage
