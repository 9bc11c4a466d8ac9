import EvmStorage.Proofs.Outcome
import EvmStorage.Proofs.PathText
import Mathlib.Logic.Function.Basic

namespace EvmStorage.Path

/-!
# The grammar of paths

A path is a first part and any number of further parts.  A part is a name or a
bracket; a name that is not the first part stands behind a dot.  The grammar
says what a bracket holds without saying how it is computed: its content is
what lies between blanks and, within these, between quotes.

A path is taken apart exactly if the grammar derives it.  The parts are those
of its derivation, of which there is only one, because a name goes on as far as
it can and a bracket ends where the first closing bracket stands.
-/

/-- A name of a path. -/
@[ext] structure Name where
  label : String
  isName : Path.isName label

/--
A bracket of a path: what stands inside of it, and the content that is left of
that.
-/
structure Bracket where
  inside : String
  content : String
  noBracket : ']' ∉ inside.toList
  isContent :
    ∃ bare,
      Stripped Text.isBlank bare inside.toList ∧
        Stripped isQuote content.toList bare
  notEmpty : content ≠ ""

/-- A part of a path as it is written. -/
inductive Part where
  | name (written : Name)
  | bracket (written : Bracket)

/-- A derivation of a path. -/
@[ext] structure Derivation where
  first : Part
  rest : List Part

/-- What a part tells. -/
def Part.segment : Part → Segment
  | .name written => .name written.label
  | .bracket written => .bracket written.content

/-- How a part is written, as the first one or behind another part. -/
def Part.chars
    (isFirst : Bool) :
    Part → List Char
  | .name written =>
      if isFirst then written.label.toList else '.' :: written.label.toList
  | .bracket written => '[' :: (written.inside.toList ++ [']'])

/-- How parts are written one behind the other. -/
def charsFrom : Bool → List Part → List Char
  | _, [] => []
  | isFirst, part :: rest => part.chars isFirst ++ charsFrom false rest

/-- The parts of a derivation. -/
def Derivation.parts (derivation : Derivation) : List Part :=
  derivation.first :: derivation.rest

/-- The path that is derived. -/
def Derivation.text (derivation : Derivation) : String :=
  String.ofList (charsFrom true derivation.parts)

/-- What the parts of a derivation tell. -/
def Derivation.segments (derivation : Derivation) : List Segment :=
  derivation.parts.map Part.segment

variable {path : String} {position : Nat} {isFirst : Bool} {c : Char}
  {s rest : List Char} {found : List Segment} {part : Part} {parts : List Part}

section Stripping

/-- The content of a bracket is what is computed from its inside. -/
theorem Bracket.bracketContent_eq (bracket : Bracket) :
    bracketContent bracket.inside.toList = bracket.content := by
  obtain ⟨bare, withoutBlanks, withoutQuotes⟩ := bracket.isContent
  rw [bracketContent, Text.strip, withoutBlanks.dropEnds_eq, stripQuotes,
    withoutQuotes.dropEnds_eq, String.ofList_toList]

/-- A bracket is known by its inside. -/
theorem Bracket.eq_of_inside
    {bracket other : Bracket}
    (sameInside : bracket.inside = other.inside) :
    bracket = other := by
  have sameContent : bracket.content = other.content := by
    rw [← bracket.bracketContent_eq, ← other.bracketContent_eq, sameInside]
  cases bracket
  cases other
  subst sameInside sameContent
  rfl

/-- The bracket with some inside, if anything is left of that. -/
def Bracket.around
    (inside : List Char)
    (noBracket : ']' ∉ inside)
    (notEmpty : bracketContent inside ≠ "") :
    Bracket where
  inside := String.ofList inside
  content := bracketContent inside
  noBracket := by simpa using noBracket
  isContent := by
    refine ⟨Text.strip inside, ?_, ?_⟩
    · rw [String.toList_ofList]
      exact stripped_dropEnds Text.isBlank inside
    · rw [bracketContent, String.toList_ofList]
      exact stripped_dropEnds isQuote (Text.strip inside)
  notEmpty := notEmpty

end Stripping

section Scanning

/-- What a name is scanned from is that name and the rest. -/
theorem exists_name_of_scanName?
    {scanned : Scanned s}
    (isScanned : scanName? s = some scanned) :
    ∃ written : Name,
      s = written.label.toList ++ scanned.rest ∧
        scanned.segment = .name written.label := by
  cases s with
  | nil =>
      cases isScanned
  | cons c rest =>
      simp only [scanName?] at isScanned
      split at isScanned
      · next isStart =>
          obtain rfl := Option.some.inj isScanned
          have isName :
              isName (String.ofList (c :: rest.takeWhile isNamePart)) := by
            have areParts : (rest.takeWhile isNamePart).all isNamePart :=
              List.all_takeWhile
            simp [Path.isName, isStart, areParts]
          exact ⟨⟨_, isName⟩, by simp, rfl⟩
      · cases isScanned

/-- What a bracket is scanned from is its inside, its end and the rest. -/
theorem exists_inside_of_scanBracket?
    {scanned : Scanned s}
    (isScanned : scanBracket? s = some scanned) :
    ∃ inside : List Char,
      ']' ∉ inside ∧ s = inside ++ ']' :: scanned.rest ∧
        scanned.segment = .bracket (bracketContent inside) := by
  unfold scanBracket? at isScanned
  split at isScanned
  · cases isScanned
  · next closing behind found =>
      obtain rfl := Option.some.inj isScanned
      have closes : closing = ']' := by
        have kept :=
          kept_of_head?_dropWhile (· != ']') s closing (by rw [found]; rfl)
        simpa using kept
      have split : s = s.takeWhile (· != ']') ++ ']' :: behind := by
        conv_lhs => rw [← List.takeWhile_append_dropWhile (p := (· != ']'))
          (l := s), found, closes]
      refine ⟨s.takeWhile (· != ']'), ?_, split, rfl⟩
      intro isIn
      simpa using List.mem_takeWhile_imp isIn

/-- Whatever is scanned is a part of the grammar, with the rest behind it. -/
theorem exists_part_of_scanSegment
    {scanned : Scanned (c :: rest)}
    (isScanned : scanSegment path position isFirst c rest = .ok scanned) :
    ∃ part : Part,
      c :: rest = part.chars isFirst ++ scanned.rest ∧
        part.segment = scanned.segment := by
  unfold scanSegment at isScanned
  dsimp only at isScanned
  split at isScanned
  · next isBracket =>
      subst isBracket
      split at isScanned
      · cases isScanned
      · next inner isInner =>
          split at isScanned
          · cases isScanned
          · next notEmpty =>
              obtain rfl := Except.ok.inj isScanned
              obtain ⟨inside, noBracket, isText, isSegment⟩ :=
                exists_inside_of_scanBracket? isInner
              have contentLeft : bracketContent inside ≠ "" := by
                intro isEmpty
                exact notEmpty (by rw [isSegment, isEmpty])
              refine ⟨.bracket (.around inside noBracket contentLeft), ?_,
                isSegment.symm⟩
              simp [Part.chars, Bracket.around, Scanned.behind, isText]
  split at isScanned
  · next starts =>
      subst starts
      split at isScanned
      · cases isScanned
      · next name isName =>
          obtain rfl := Except.ok.inj isScanned
          obtain ⟨written, isText, isSegment⟩ := exists_name_of_scanName? isName
          refine ⟨.name written, ?_, isSegment.symm⟩
          simpa [Part.chars] using isText
  split at isScanned
  · next notFirst isDot =>
      subst isDot
      split at isScanned
      · cases isScanned
      · next name isName =>
          obtain rfl := Except.ok.inj isScanned
          obtain ⟨written, isText, isSegment⟩ := exists_name_of_scanName? isName
          refine ⟨.name written, ?_, isSegment.symm⟩
          simp [Part.chars, notFirst, Scanned.behind, isText]
  · cases isScanned

/-- Whatever is taken apart is written by the grammar, part by part. -/
theorem exists_parts_of_segmentsFrom
    (path : String)
    (position : Nat)
    (isFirst : Bool)
    (s : List Char) :
    ∀ found, segmentsFrom path position isFirst s = .ok found →
      ∃ parts : List Part,
        s = charsFrom isFirst parts ∧ parts.map Part.segment = found := by
  fun_induction segmentsFrom path position isFirst s with
  | case1 =>
      intro found areFound
      exact ⟨[], rfl, Except.ok.inj areFound⟩
  | case2 position isFirst c rest fault isFault =>
      intro found areFound
      cases areFound
  | case3 position isFirst c rest scanned isScanned taken inductionHypothesis =>
      intro found areFound
      obtain ⟨later, areLater, isFound⟩ := Outcome.bind_eq_ok_iff.mp areFound
      obtain rfl := Except.ok.inj isFound
      obtain ⟨part, isText, isSegment⟩ := exists_part_of_scanSegment isScanned
      obtain ⟨parts, isRest, areSegments⟩ := inductionHypothesis later areLater
      exact ⟨part :: parts, by rw [isText, isRest, charsFrom],
        by rw [List.map_cons, isSegment, areSegments]⟩

end Scanning

section Completeness

/-- A name ends where further parts begin. -/
theorem endsName_charsFrom
    (parts : List Part) :
    EndsName (charsFrom false parts) := by
  have ends : ∀ c ∈ ['.', '['], isNamePart c = false :=
    List.forall_iff_forall_mem.mp (by decide +kernel)
  intro c isFirst
  apply ends
  cases parts with
  | nil =>
      cases isFirst
  | cons part rest =>
      cases part with
      | name written =>
          simpa [charsFrom, Part.chars, eq_comm] using Or.inl isFirst
      | bracket written =>
          simpa [charsFrom, Part.chars, eq_comm] using Or.inr isFirst

/--
What the grammar writes is taken apart into the parts that it was written from.
-/
theorem hasParts_charsFrom
    (isFirst : Bool)
    (parts : List Part) :
    HasParts isFirst (charsFrom isFirst parts) (parts.map Part.segment) := by
  induction parts generalizing isFirst with
  | nil =>
      exact hasParts_nil
  | cons part rest inductionHypothesis =>
      have later := inductionHypothesis false
      have ends := endsName_charsFrom rest
      cases part with
      | name written =>
          cases isFirst with
          | true =>
              exact hasParts_name written.isName ends later
          | false =>
              exact hasParts_dot written.isName ends later
      | bracket written =>
          have notEmpty : bracketContent written.inside.toList ≠ "" := by
            rw [written.bracketContent_eq]
            exact written.notEmpty
          have parts :=
            @hasParts_bracket isFirst _ _ _ written.noBracket notEmpty later
          rw [written.bracketContent_eq] at parts
          simpa [charsFrom, Part.chars, Part.segment] using parts

end Completeness

section Unambiguity

variable {other : Part} {written otherWritten : Name} {more : List Char}

/-- A name begins with a character that a name may begin with. -/
theorem Name.exists_chars (written : Name) :
    ∃ first rest,
      written.label.toList = first :: rest ∧ isNameStart first ∧ ∀ c ∈ rest,
        isNamePart c := by
  have isName := written.isName
  unfold Path.isName at isName
  split at isName
  · cases isName
  · next first rest isLabel =>
      simp only [Bool.and_eq_true, List.all_eq_true] at isName
      exact ⟨first, rest, isLabel, isName.1, isName.2⟩

/-- A name begins neither with a dot nor with a bracket. -/
theorem Name.head?_chars
    (written : Name)
    (notStart : isNameStart c = false) :
    (written.label.toList ++ rest).head? ≠ some c := by
  obtain ⟨first, others, isLabel, isStart, areParts⟩ := written.exists_chars
  rintro isFirst
  rw [isLabel, List.cons_append, List.head?_cons, Option.some.injEq] at isFirst
  rw [isFirst, notStart] at isStart
  cases isStart

/--
A name goes on as far as it can, so only one name stands at the beginning of a
text.
-/
theorem Name.eq_of_append
    (ends : EndsName rest)
    (otherEnds : EndsName more)
    (same : written.label.toList ++ rest = otherWritten.label.toList ++ more) :
    written = otherWritten ∧ rest = more := by
  obtain ⟨scanned, isScanned, isSegment, isRest⟩ :=
    exists_scanName? written.isName ends
  obtain ⟨otherScanned, isOther, isOtherSegment, isOtherRest⟩ :=
    exists_scanName? otherWritten.isName otherEnds
  revert scanned
  rw [same]
  intro scanned isScanned isSegment isRest
  obtain rfl := Option.some.inj (isOther.symm.trans isScanned)
  have sameLabel := Segment.name.inj (isSegment.symm.trans isOtherSegment)
  exact ⟨Name.ext sameLabel, isRest.symm.trans isOtherRest⟩

/-- A bracket ends where the first closing bracket stands. -/
theorem Bracket.eq_of_append
    {bracket otherBracket : Bracket}
    (same :
      bracket.inside.toList ++ ']' :: rest =
        otherBracket.inside.toList ++ ']' :: more) :
    bracket = otherBracket ∧ rest = more := by
  have others :
      ∀ bracket : Bracket, ∀ c ∈ bracket.inside.toList, (c != ']') = true := by
    intro bracket c isIn
    simpa using ne_of_mem_of_not_mem isIn bracket.noBracket
  have taken : ∀ (bracket : Bracket) (rest : List Char),
      (bracket.inside.toList ++ ']' :: rest).takeWhile (· != ']') =
        bracket.inside.toList := by
    intro bracket rest
    rw [List.takeWhile_append_of_pos (others bracket),
      List.takeWhile_cons_of_neg (by decide), List.append_nil]
  have sameInside : bracket.inside.toList = otherBracket.inside.toList := by
    rw [← taken bracket rest, same, taken]
  refine ⟨Bracket.eq_of_inside (String.toList_injective sameInside), ?_⟩
  rw [sameInside] at same
  simpa using List.append_cancel_left same

/-- Only one part of the grammar stands at the beginning of a text. -/
theorem Part.eq_of_append
    (ends : EndsName rest)
    (otherEnds : EndsName more)
    (same : part.chars isFirst ++ rest = other.chars isFirst ++ more) :
    part = other ∧ rest = more := by
  have notBracket : ∀ written : Name, ∀ rest : List Char,
      ((Part.name written).chars isFirst ++ rest).head? ≠ some '[' := by
    intro written rest
    cases isFirst with
    | true =>
        exact written.head?_chars (by decide)
    | false =>
        simp [Part.chars]
  cases part with
  | name written =>
      cases other with
      | name otherWritten =>
          have sameNames :
              written.label.toList ++ rest =
                otherWritten.label.toList ++ more := by
            cases isFirst with
            | true =>
                exact same
            | false =>
                exact List.tail_eq_of_cons_eq same
          obtain ⟨rfl, sameRest⟩ := Name.eq_of_append ends otherEnds sameNames
          exact ⟨rfl, sameRest⟩
      | bracket otherWritten =>
          exact absurd (by rw [same]; rfl) (notBracket written rest)
  | bracket written =>
      cases other with
      | name otherWritten =>
          exact absurd (by rw [← same]; rfl) (notBracket otherWritten more)
      | bracket otherWritten =>
          have sameInside :
              written.inside.toList ++ ']' :: rest =
                otherWritten.inside.toList ++ ']' :: more := by
            simpa [Part.chars] using same
          obtain ⟨rfl, sameRest⟩ := Bracket.eq_of_append sameInside
          exact ⟨rfl, sameRest⟩

/-- A part is not written as nothing. -/
theorem Part.chars_ne_nil
    (part : Part)
    (isFirst : Bool) :
    part.chars isFirst ≠ [] := by
  cases part with
  | name written =>
      obtain ⟨first, others, isLabel, -⟩ := written.exists_chars
      cases isFirst <;> simp [Part.chars, isLabel]
  | bracket written =>
      simp [Part.chars]

/-- A text is written from one list of parts. -/
theorem charsFrom_injective (isFirst : Bool) :
    Function.Injective (charsFrom isFirst) := by
  intro parts others same
  induction parts generalizing isFirst others with
  | nil =>
      cases others with
      | nil =>
          rfl
      | cons other later =>
          exact absurd (List.append_eq_nil_iff.mp same.symm).1
            (other.chars_ne_nil isFirst)
  | cons part rest inductionHypothesis =>
      cases others with
      | nil =>
          exact absurd (List.append_eq_nil_iff.mp same).1
            (part.chars_ne_nil isFirst)
      | cons other later =>
          obtain ⟨rfl, sameRest⟩ :=
            Part.eq_of_append (endsName_charsFrom rest)
              (endsName_charsFrom later) same
          rw [inductionHypothesis false sameRest]

/-- A path has one derivation. -/
theorem Derivation.text_injective : Function.Injective Derivation.text := by
  intro derivation other same
  have sameParts : derivation.parts = other.parts :=
    charsFrom_injective true (String.ofList_injective same)
  obtain ⟨sameFirst, sameRest⟩ := List.cons_eq_cons.mp sameParts
  exact Derivation.ext sameFirst sameRest

end Unambiguity

section Faults

/-- Where no part is found, nothing else is said than that it does not exist. -/
theorem family?_of_scanSegment
    {fault : Fault}
    (isFault : scanSegment path position isFirst c rest = .error fault) :
    fault.family? = some "NotFoundError" := by
  unfold scanSegment at isFault
  dsimp only at isFault
  repeat' split at isFault
  all_goals cases isFault
  all_goals rfl

/--
Wherever the parts of a path end, nothing else is said than that there are no
more.
-/
theorem family?_of_segmentsFrom
    (path : String)
    (position : Nat)
    (isFirst : Bool)
    (s : List Char) :
    ∀ fault, segmentsFrom path position isFirst s = .error fault →
      fault.family? = some "NotFoundError" := by
  fun_induction segmentsFrom path position isFirst s with
  | case1 =>
      intro fault isFault
      cases isFault
  | case2 position isFirst c rest found isFound =>
      intro fault isFault
      obtain rfl := Except.error.inj isFault
      exact family?_of_scanSegment isFound
  | case3 position isFirst c rest scanned isScanned taken inductionHypothesis =>
      intro fault isFault
      cases areLater :
        segmentsFrom path (position + taken) false scanned.rest with
      | ok later =>
          rw [areLater] at isFault
          cases isFault
      | error laterFault =>
          rw [areLater] at isFault
          obtain rfl := Except.error.inj isFault
          exact inductionHypothesis laterFault areLater

/--
A path that is not taken apart does not exist, and nothing else is said of it.
-/
theorem family?_of_segments
    {fault : Fault}
    (isFault : segments path = .error fault) :
    fault.family? = some "NotFoundError" := by
  unfold segments at isFault
  cases areFound : segmentsFrom path 0 true path.toList with
  | ok found =>
      simp only [areFound, Outcome.ok_bind] at isFault
      split at isFault
      · obtain rfl := Except.error.inj isFault
        rfl
      · cases isFault
  | error found =>
      rw [areFound] at isFault
      obtain rfl := Except.error.inj isFault
      exact family?_of_segmentsFrom path 0 true path.toList found areFound

end Faults

/--
A path is taken apart exactly if the grammar derives it, into the parts of a
derivation.
-/
theorem segments_eq_ok_iff :
    segments path = .ok found ↔
      ∃ derivation : Derivation,
        derivation.text = path ∧ derivation.segments = found := by
  constructor
  · intro isFound
    obtain ⟨segments, areSegments, isResult⟩ :=
      Outcome.bind_eq_ok_iff.mp isFound
    split at isResult
    · cases isResult
    · next someParts =>
        obtain rfl := Except.ok.inj isResult
        obtain ⟨parts, isText, rfl⟩ :=
          exists_parts_of_segmentsFrom path 0 true path.toList segments
            areSegments
        cases parts with
        | nil =>
            exact absurd rfl someParts
        | cons first rest =>
            refine ⟨⟨first, rest⟩, ?_, rfl⟩
            rw [Derivation.text, Derivation.parts, ← isText,
              String.ofList_toList]
  · rintro ⟨derivation, rfl, rfl⟩
    have areParts := hasParts_charsFrom true derivation.parts derivation.text 0
    rw [segments, Derivation.text, String.toList_ofList]
    rw [Derivation.text] at areParts
    rw [areParts]
    rfl

section Composition

/-- Parts behind other ones are written one after the other. -/
theorem charsFrom_append (parts others : List Part) :
    charsFrom false (parts ++ others) =
      charsFrom false parts ++ charsFrom false others := by
  induction parts with
  | nil =>
      rfl
  | cons part rest inductionHypothesis =>
      rw [List.cons_append, charsFrom, charsFrom, inductionHypothesis,
        List.append_assoc]

/-- The derivation that goes on with the parts of another one. -/
def Derivation.followedBy (derivation other : Derivation) : Derivation where
  first := derivation.first
  rest := derivation.rest ++ other.parts

variable (derivation other : Derivation)

/--
Of a derivation that goes on with another one, the parts are those of both.
-/
theorem Derivation.segments_followedBy :
    (derivation.followedBy other).segments =
      derivation.segments ++ other.segments := by
  simp [segments, parts, followedBy]

/-- How a derivation goes on is written as the parts that it goes on with. -/
theorem Derivation.text_followedBy :
    (derivation.followedBy other).text =
      derivation.text ++ String.ofList (charsFrom false other.parts) := by
  rw [text, text, ← String.ofList_append]
  simp [parts, followedBy, charsFrom, charsFrom_append]

/-- A path that begins with a name stands behind a dot. -/
theorem Derivation.text_followedBy_name
    {written : Name}
    (startsWithName : other.first = .name written) :
    (derivation.followedBy other).text =
      derivation.text ++ "." ++ other.text := by
  have isBehind :
      charsFrom false other.parts = ['.'] ++ charsFrom true other.parts := by
    simp [parts, charsFrom, startsWithName, Part.chars]
  rw [text_followedBy, isBehind, String.ofList_append, String.append_assoc]
  rfl

/-- A path that begins with a bracket stands behind another one as it is. -/
theorem Derivation.text_followedBy_bracket
    {written : Bracket}
    (startsWithBracket : other.first = .bracket written) :
    (derivation.followedBy other).text = derivation.text ++ other.text := by
  have isBehind : charsFrom false other.parts = charsFrom true other.parts := by
    simp [parts, charsFrom, startsWithBracket, Part.chars]
  rw [text_followedBy, isBehind]
  rfl

/-- Paths that are put together are taken apart one after the other. -/
theorem segments_append
    {path more : String}
    {found later : List Segment}
    (areFound : segments path = .ok found)
    (areLater : segments more = .ok later) :
    (∀ label, later.head? = some (.name label) →
        segments (path ++ "." ++ more) = .ok (found ++ later)) ∧
      ∀ content, later.head? = some (.bracket content) →
        segments (path ++ more) = .ok (found ++ later) := by
  obtain ⟨derivation, rfl, rfl⟩ := segments_eq_ok_iff.mp areFound
  obtain ⟨other, rfl, rfl⟩ := segments_eq_ok_iff.mp areLater
  have isFirst : other.segments.head? = some other.first.segment := rfl
  rw [isFirst]
  constructor
  · intro label isLabel
    cases startsWith : other.first with
    | name written =>
        exact segments_eq_ok_iff.mpr ⟨derivation.followedBy other,
          derivation.text_followedBy_name other startsWith,
          derivation.segments_followedBy other⟩
    | bracket written =>
        rw [startsWith] at isLabel
        cases isLabel
  · intro content isContent
    cases startsWith : other.first with
    | name written =>
        rw [startsWith] at isContent
        cases isContent
    | bracket written =>
        exact segments_eq_ok_iff.mpr ⟨derivation.followedBy other,
          derivation.text_followedBy_bracket other startsWith,
          derivation.segments_followedBy other⟩

end Composition

/--
The texts that are taken apart are those of the grammar.

A text has one derivation at most.  If it has one, its parts are those of the
derivation, and if it has none, nothing else is said than that the path does
not exist.  So a path that is put together from two others has the parts of the
first and then those of the second.
-/
theorem segments_decides_grammar :
    Function.Injective Derivation.text ∧
      (∀ path found,
        segments path = .ok found ↔
          ∃ derivation : Derivation,
            derivation.text = path ∧ derivation.segments = found) ∧
      (∀ path, (∀ derivation : Derivation, derivation.text ≠ path) →
        ∃ fault,
          segments path = .error fault ∧ fault.family? = some "NotFoundError") ∧
      ∀ path more found later,
        segments path = .ok found → segments more = .ok later →
          (∀ label, later.head? = some (.name label) →
              segments (path ++ "." ++ more) = .ok (found ++ later)) ∧
            ∀ content, later.head? = some (.bracket content) →
              segments (path ++ more) = .ok (found ++ later) := by
  refine ⟨Derivation.text_injective, fun _ _ => segments_eq_ok_iff, ?_,
    fun _ _ _ _ areFound areLater => segments_append areFound areLater⟩
  intro path underived
  cases isResult : segments path with
  | ok found =>
      obtain ⟨derivation, isText, -⟩ := segments_eq_ok_iff.mp isResult
      exact absurd isText (underived derivation)
  | error fault =>
      exact ⟨fault, rfl, family?_of_segments isResult⟩

/--
The derivation of the member of an owner whose name stands between quotes.
-/
def ownedPlot : Derivation where
  first := .name ⟨"plots", by decide +kernel⟩
  rest :=
    [.bracket (.around " \"owner\" ".toList (by decide) (by decide +kernel))]

/--
A path that begins with a name goes on behind a dot, and no part is found in no
text.
-/
theorem segments_of_ownedPlot :
    segments ("s" ++ "." ++ "plots[ \"owner\" ]") =
        .ok [.name "s", .name "plots", .bracket "owner"] ∧
      ∃ fault,
        segments "" = .error fault ∧ fault.family? = some "NotFoundError" := by
  obtain ⟨-, isFound, isRefused, isJoined⟩ := segments_decides_grammar
  have areFirst : segments "s" = .ok [.name "s"] :=
    (isFound _ _).mpr
      ⟨⟨.name ⟨"s", by decide +kernel⟩, []⟩, by decide +kernel, rfl⟩
  have areLater :
      segments "plots[ \"owner\" ]" = .ok [.name "plots", .bracket "owner"] :=
    (isFound _ _).mpr ⟨ownedPlot, by decide +kernel, by decide +kernel⟩
  refine ⟨(isJoined _ _ _ _ areFirst areLater).1 "plots" rfl, isRefused "" ?_⟩
  intro derivation isEmpty
  have noChars :
      derivation.first.chars true ++ charsFrom false derivation.rest = [] :=
    String.ofList_injective isEmpty
  exact derivation.first.chars_ne_nil true (List.append_eq_nil_iff.mp noChars).1

end EvmStorage.Path
