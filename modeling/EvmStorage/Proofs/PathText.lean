import EvmStorage.Proofs.KeyText

namespace EvmStorage.Path

/-!
# The parts of a written path

A path that is written part by part, names behind dots and everything else in
brackets, is taken apart into the same parts again.  A name ends where the
next part begins, because neither a dot nor a bracket can go on with it.
-/

/-- Whether a text can be the name of a variable or of a member. -/
def isName (text : String) : Bool :=
  match text.toList with
  | [] => false
  | first :: rest => isNameStart first && rest.all isNamePart

/-- How a part of a path is written behind other parts. -/
inductive Spelled : Segment → String → Prop where
  | name
      {label : String}
      (areNameChars : isName label) :
      Spelled (.name label) ("." ++ label)
  | bracket
      {inside : String}
      (noBracket : ']' ∉ inside.toList)
      (notEmpty : bracketContent inside.toList ≠ "") :
      Spelled (.bracket (bracketContent inside.toList)) ("[" ++ inside ++ "]")

/-- How parts of a path are written one behind the other. -/
inductive SpelledAll : List Segment → String → Prop where
  | nil :
      SpelledAll [] ""
  | cons
      {segment : Segment}
      {text more : String}
      {rest : List Segment}
      (first : Spelled segment text)
      (later : SpelledAll rest more) :
      SpelledAll (segment :: rest) (text ++ more)

/-- A path without the dot it may begin with. -/
def withoutDot (path : String) : String :=
  match path.toList with
  | '.' :: rest => String.ofList rest
  | _ => path

/-- Whether a text has these parts, at every position of every path. -/
def HasParts
    (isFirst : Bool)
    (s : List Char)
    (segments : List Segment) :
    Prop :=
  ∀ path position, segmentsFrom path position isFirst s = .ok segments

/-- Whether a name ends in front of a text. -/
def EndsName (s : List Char) : Prop :=
  ∀ c ∈ s.head?, isNamePart c = false

variable {isFirst : Bool} {c : Char} {s rest : List Char} {segment : Segment}
  {segments : List Segment} {label text : String}

theorem hasParts_nil : HasParts isFirst [] [] := by
  intro path position
  rw [segmentsFrom]

/--
A part that is found at the beginning stands in front of the parts of the rest.
-/
theorem hasParts_of_scanSegment
    (found :
      ∀ path position, ∃ scanned,
        scanSegment path position isFirst c s = .ok scanned ∧
          scanned.segment = segment ∧ scanned.rest = rest)
    (later : HasParts false rest segments) :
    HasParts isFirst (c :: s) (segment :: segments) := by
  intro path position
  obtain ⟨scanned, isScanned, rfl, rfl⟩ := found path position
  rw [segmentsFrom]
  simp only [isScanned]
  rw [later path _]
  rfl

/-- A name is found in front of a text at which it ends. -/
theorem exists_scanName?
    (areNameChars : isName label)
    (ends : EndsName rest) :
    ∃ scanned,
      scanName? (label.toList ++ rest) = some scanned ∧
        scanned.segment = .name label ∧ scanned.rest = rest := by
  unfold isName at areNameChars
  split at areNameChars
  · cases areNameChars
  · next first others isLabel =>
      simp only [Bool.and_eq_true, List.all_eq_true] at areNameChars
      obtain ⟨isStart, areParts⟩ := areNameChars
      have noneTaken : rest.takeWhile isNamePart = [] := by
        cases rest with
        | nil =>
            rfl
        | cons c rest =>
            rw [List.takeWhile_cons_of_neg (by simp [ends c rfl])]
      have noneDropped : rest.dropWhile isNamePart = rest :=
        dropWhile_of_head? ends
      rw [isLabel, List.cons_append]
      simp only [scanName?, isStart, ↓reduceIte,
        List.takeWhile_append_of_pos areParts,
        List.dropWhile_append_of_pos areParts, noneTaken, noneDropped,
        List.append_nil]
      refine ⟨_, rfl, ?_, rfl⟩
      rw [← isLabel, String.ofList_toList]

/-- What a bracket holds is found in front of the text behind the bracket. -/
theorem exists_scanBracket?
    {inside : List Char}
    (noBracket : ']' ∉ inside) :
    ∃ scanned,
      scanBracket? (inside ++ ']' :: rest) = some scanned ∧
        scanned.segment = .bracket (bracketContent inside) ∧
          scanned.rest = rest := by
  have others : ∀ c ∈ inside, (c != ']') = true := by
    intro c isIn
    simpa using ne_of_mem_of_not_mem isIn noBracket
  have taken : (inside ++ ']' :: rest).takeWhile (· != ']') = inside := by
    rw [List.takeWhile_append_of_pos others,
      List.takeWhile_cons_of_neg (by decide), List.append_nil]
  have dropped :
      (inside ++ ']' :: rest).dropWhile (· != ']') = ']' :: rest := by
    rw [List.dropWhile_append_of_pos others,
      List.dropWhile_cons_of_neg (by decide)]
  unfold scanBracket?
  split
  · next noneLeft =>
      rw [dropped] at noneLeft
      cases noneLeft
  · next closing behind found =>
      rw [dropped, List.cons.injEq] at found
      exact ⟨_, rfl, by rw [taken], found.2.symm⟩

/-- A name does not begin with the character that a bracket begins with. -/
theorem ne_bracket_of_isNameStart
    (isStart : isNameStart c) :
    c ≠ '[' := by
  rintro rfl
  revert isStart
  decide

/-- A name stands at the beginning of a path. -/
theorem hasParts_name
    (areNameChars : isName label)
    (ends : EndsName rest)
    (later : HasParts false rest segments) :
    HasParts true (label.toList ++ rest) (.name label :: segments) := by
  obtain ⟨scanned, isScanned, isSegment, isRest⟩ :=
    exists_scanName? areNameChars ends
  unfold isName at areNameChars
  split at areNameChars
  · cases areNameChars
  · next first others isLabel =>
      simp only [Bool.and_eq_true] at areNameChars
      have notBracket := ne_bracket_of_isNameStart areNameChars.1
      revert scanned
      rw [isLabel, List.cons_append]
      intro scanned isScanned isSegment isRest
      apply hasParts_of_scanSegment _ later
      intro path position
      refine ⟨scanned, ?_, isSegment, isRest⟩
      simp only [scanSegment, notBracket, isScanned, ↓reduceIte]

/-- A name stands behind a dot. -/
theorem hasParts_dot
    (areNameChars : isName label)
    (ends : EndsName rest)
    (later : HasParts false rest segments) :
    HasParts false ('.' :: (label.toList ++ rest))
      (.name label :: segments) := by
  obtain ⟨scanned, isScanned, isSegment, isRest⟩ :=
    exists_scanName? areNameChars ends
  apply hasParts_of_scanSegment _ later
  intro path position
  refine ⟨scanned.behind '.', ?_, isSegment, isRest⟩
  simp [scanSegment, isScanned]

/-- Everything else stands in brackets. -/
theorem hasParts_bracket
    {inside : List Char}
    (noBracket : ']' ∉ inside)
    (notEmpty : bracketContent inside ≠ "")
    (later : HasParts false rest segments) :
    HasParts isFirst ('[' :: (inside ++ ']' :: rest))
      (.bracket (bracketContent inside) :: segments) := by
  obtain ⟨scanned, isScanned, isSegment, isRest⟩ :=
    @exists_scanBracket? rest inside noBracket
  apply hasParts_of_scanSegment _ later
  intro path position
  refine ⟨scanned.behind '[', ?_, isSegment, isRest⟩
  simp [scanSegment, isScanned, isSegment, notEmpty]

/-- A part that is written behind a name does not go on with it. -/
theorem SpelledAll.endsName
    (spelled : SpelledAll segments text) :
    EndsName text.toList := by
  have ends : ∀ c ∈ ['.', '['], isNamePart c = false :=
    List.forall_iff_forall_mem.mp (by decide +kernel)
  intro c isFirst
  cases spelled with
  | nil =>
      cases isFirst
  | cons first later =>
      apply ends
      cases first with
      | name areNameChars =>
          simpa [eq_comm] using Or.inl isFirst
      | bracket noBracket notEmpty =>
          simpa [eq_comm] using Or.inr isFirst

/-- A text of written parts has these parts. -/
theorem SpelledAll.hasParts
    (spelled : SpelledAll segments text) :
    HasParts false text.toList segments := by
  induction spelled with
  | nil =>
      exact hasParts_nil
  | @cons segment text more rest first later inductionHypothesis =>
      cases first with
      | name areNameChars =>
          simpa using hasParts_dot areNameChars later.endsName
            inductionHypothesis
      | bracket noBracket notEmpty =>
          simpa using hasParts_bracket noBracket notEmpty inductionHypothesis

/--
A name and parts behind it are found in the text that they are written as.
-/
theorem SpelledAll.segments_behind
    (spelled : SpelledAll segments text)
    (areNameChars : isName label) :
    Path.segments (label ++ text) = .ok (.name label :: segments) := by
  have parts := hasParts_name areNameChars spelled.endsName spelled.hasParts
  rw [Path.segments, String.toList_append, parts]
  rfl

/--
Parts are found in the text that they are written as, without the dot in front.
-/
theorem SpelledAll.segments_withoutDot
    (spelled : SpelledAll segments text)
    (someParts : segments ≠ []) :
    Path.segments (withoutDot text) = .ok segments := by
  cases spelled with
  | nil =>
      exact absurd rfl someParts
  | @cons segment text more rest first later =>
      cases first with
      | @name label areNameChars =>
          have behindDot :
              withoutDot ("." ++ label ++ more) = label ++ more := by
            simp [withoutDot]
          rw [behindDot, later.segments_behind areNameChars]
      | @bracket inside noBracket notEmpty =>
          have noDot :
              withoutDot ("[" ++ inside ++ "]" ++ more) =
                "[" ++ inside ++ "]" ++ more := by
            simp [withoutDot]
          have parts :
              HasParts true ("[" ++ inside ++ "]" ++ more).toList
                (.bracket (bracketContent inside.toList) :: rest) := by
            simpa using hasParts_bracket noBracket notEmpty later.hasParts
          rw [noDot, Path.segments, parts]
          rfl

end EvmStorage.Path
