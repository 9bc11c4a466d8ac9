import EvmStorage.Contract

namespace EvmStorage

/-!
# Layouts with the same types

Of the table of types of a layout, only the number of its types and what it has
under each identifier are ever looked at.  Layouts that agree on both can be put
for each other wherever a position is moved or a value is read, and contracts
that have the same variables as well give the same answers to everything.
-/

/-- Whether layouts have as many types, and the same under every identifier. -/
structure Layout.SameTypes (layout other : Layout) : Prop where
  find?_eq : ∀ id, layout.find? id = other.find? id
  length_eq : layout.types.length = other.types.length

namespace Layout.SameTypes

variable {layout other : Layout} (sameTypes : layout.SameTypes other)

include sameTypes

/-- The same type is found for whatever is given as an identifier. -/
theorem lookup_eq : layout.lookup = other.lookup := by
  funext id
  cases id with
  | text name =>
      simp only [lookup, sameTypes.find?_eq]
  | null | bool | int | float | bytes | list | record | struct =>
      rfl

theorem sizeOf_eq : layout.sizeOf = other.sizeOf := by
  funext id
  simp only [sizeOf, sameTypes.lookup_eq]

theorem elementOf_eq : layout.elementOf = other.elementOf := by
  funext type
  simp only [elementOf, sameTypes.lookup_eq]

theorem depth_eq : layout.depth = other.depth := by
  simp only [depth, sameTypes.length_eq]

section Decoding

open Decode

/-- Where the values of a type lie is the same. -/
theorem storedElsewhere_eq :
    storedElsewhere layout = storedElsewhere other := by
  have atDepth (depth : Nat) :
      storedElsewhereWithin layout depth =
        storedElsewhereWithin other depth := by
    induction depth with
    | zero =>
        rfl
    | succ depth inductionHypothesis =>
        funext type
        simp only [storedElsewhereWithin, sameTypes.elementOf_eq,
          inductionHypothesis]
  funext type
  simp only [storedElsewhere, sameTypes.depth_eq, atDepth]

theorem elementInPlace_eq : elementInPlace layout = elementInPlace other := by
  funext type
  simp only [elementInPlace, sameTypes.elementOf_eq,
    sameTypes.storedElsewhere_eq]

/-- The elements of an array are decoded the same, if each of them is. -/
theorem sequenceWith_eq (part : PartDecoder) :
    sequenceWith part layout = sequenceWith part other := by
  funext words type length
  simp only [sequenceWith, sameTypes.elementInPlace_eq]

/-- The members of a struct are decoded the same, if each of them is. -/
theorem structWith_eq (part : PartDecoder) :
    structWith part layout = structWith part other := by
  have sameStep : memberWith part layout = memberWith part other := by
    funext words type decoded member
    simp only [memberWith, sameTypes.lookup_eq, sameTypes.storedElsewhere_eq]
  funext words type
  simp only [structWith, sameStep]

theorem valueWithin_eq
    (hash : Digest)
    (depth : Nat) :
    valueWithin hash layout depth = valueWithin hash other depth := by
  induction depth with
  | zero =>
      rfl
  | succ depth inductionHypothesis =>
      funext words offset type
      simp only [valueWithin, inductionHypothesis, sameTypes.structWith_eq,
        sameTypes.sequenceWith_eq]

theorem sequence_eq (hash : Digest) :
    Decode.sequence hash layout = Decode.sequence hash other := by
  funext words type length
  simp only [Decode.sequence, sameTypes.sequenceWith_eq,
    sameTypes.valueWithin_eq, sameTypes.depth_eq]

theorem struct_eq (hash : Digest) :
    struct hash layout = struct hash other := by
  funext words type
  simp only [struct, sameTypes.structWith_eq, sameTypes.valueWithin_eq,
    sameTypes.depth_eq]

end Decoding

section Cursors

/-- Every step leads to the same position. -/
theorem step_eq (hash : Digest) :
    Position.step hash layout = Position.step hash other := by
  funext position step
  simp only [Position.step, sameTypes.lookup_eq]
  congr 1
  funext type
  cases step with
  | field name =>
      rfl
  | key key =>
      rfl
  | index index =>
      simp only [Position.stepWithin, Position.element, sameTypes.sizeOf_eq]

theorem ofPosition_eq : Cursor.ofPosition layout = Cursor.ofPosition other := by
  funext position path
  simp only [Cursor.ofPosition, sameTypes.lookup_eq]

theorem cursorStep_eq (hash : Digest) :
    Cursor.step hash layout = Cursor.step hash other := by
  funext cursor step
  simp only [Cursor.step, sameTypes.step_eq, sameTypes.ofPosition_eq]

/-- The parts of a path lead to the same cursor. -/
theorem follow_eq
    (hash : Digest)
    (cursor : Cursor)
    (segments : List Path.Segment) :
    cursor.follow hash layout segments = cursor.follow hash other segments := by
  induction segments generalizing cursor with
  | nil =>
      rfl
  | cons segment rest inductionHypothesis =>
      simp only [Cursor.follow, sameTypes.cursorStep_eq, inductionHypothesis]

theorem cursorFollowPath_eq (hash : Digest) :
    Cursor.followPath hash layout = Cursor.followPath hash other := by
  funext cursor path
  simp only [Cursor.followPath, sameTypes.follow_eq]

theorem readInPlace_eq (hash : Digest) :
    Cursor.readInPlace hash layout = Cursor.readInPlace hash other := by
  funext cursor
  unfold Cursor.readInPlace
  rw [sameTypes.struct_eq, sameTypes.sequence_eq]

theorem readDynamicArray_eq (hash : Digest) :
    Cursor.readDynamicArray hash layout =
      Cursor.readDynamicArray hash other := by
  funext cursor
  unfold Cursor.readDynamicArray
  rw [sameTypes.elementOf_eq, sameTypes.sequence_eq]

/-- The value at a cursor is read in the same slots, and it is the same. -/
theorem resolve_eq (hash : Digest) :
    Cursor.resolve hash layout = Cursor.resolve hash other := by
  funext cursor
  unfold Cursor.resolve
  rw [sameTypes.elementInPlace_eq, sameTypes.readInPlace_eq,
    sameTypes.readDynamicArray_eq]

end Cursors

end Layout.SameTypes

/--
Whether layouts give the same answers: about variables, types and members,
about where every step and every path leads, and about what is read there.
-/
structure Layout.SameAnswers (layout other : Layout) : Prop where
  topLevel : ∀ label, layout.topLevel label = other.topLevel label
  lookup : ∀ id, layout.lookup id = other.lookup id
  member :
    ∀ id name,
      (layout.lookup id >>= fun type => type.member name) =
        other.lookup id >>= fun type => type.member name
  cursorOn :
    ∀ address block label,
      Contract.cursorOn { address, layout, defaultBlock := block } label =
        Contract.cursorOn
          { address, layout := other, defaultBlock := block } label
  step :
    ∀ hash cursor step,
      Cursor.step hash layout cursor step = Cursor.step hash other cursor step
  followPath :
    ∀ hash address block path,
      Contract.followPath hash { address, layout, defaultBlock := block } path =
        Contract.followPath hash
          { address, layout := other, defaultBlock := block } path
  cursorFollowPath :
    ∀ hash cursor path,
      Cursor.followPath hash layout cursor path =
        Cursor.followPath hash other cursor path
  read :
    ∀ {σ : Type} hash address block (provider : Provider σ) cursor state,
      Contract.read hash
        { address, layout, defaultBlock := block } provider cursor state =
        Contract.read hash
          { address, layout := other, defaultBlock := block } provider
          cursor state

/-- Layouts with the same types and variables give the same answers. -/
theorem Layout.SameTypes.sameAnswers
    {layout other : Layout}
    (sameTypes : layout.SameTypes other)
    (sameVariables : layout.stateVariables = other.stateVariables) :
    layout.SameAnswers other := by
  have sameTopLevel : layout.topLevel = other.topLevel := by
    funext label
    simp only [topLevel, sameVariables]
  have sameCursorOn (address : String) (block label : Value) :
      Contract.cursorOn { address, layout, defaultBlock := block } label =
        Contract.cursorOn
          { address, layout := other, defaultBlock := block } label := by
    simp only [Contract.cursorOn, sameTopLevel, sameTypes.ofPosition_eq]
  exact {
    topLevel := fun label => by rw [sameTopLevel]
    lookup := fun id => by rw [sameTypes.lookup_eq]
    member := fun id name => by rw [sameTypes.lookup_eq]
    cursorOn := sameCursorOn
    step := fun hash cursor step => by rw [sameTypes.cursorStep_eq]
    followPath := fun hash address block path => by
      simp only [Contract.followPath, sameCursorOn, sameTypes.follow_eq]
    cursorFollowPath := fun hash cursor path => by
      rw [sameTypes.cursorFollowPath_eq]
    read := fun hash address block provider cursor state => by
      simp only [Contract.read, sameTypes.resolve_eq] }

end EvmStorage
