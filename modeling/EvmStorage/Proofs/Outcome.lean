import Mathlib.Data.List.Forall2

namespace EvmStorage

/-!
# Computations that end without a fault

A computation in several steps succeeds exactly if every step does, whatever
its faults are.  These equations open the steps one after the other, so that no
proof has to unfold how faults are passed on.
-/

namespace Outcome

variable {ε : Type}

/-- A result is handed on to the next step. -/
@[simp]
theorem ok_bind
    (result : α)
    (next : α → Except ε β) :
    (Except.ok result >>= next) = next result :=
  rfl

/-- A fault ends a computation. -/
@[simp]
theorem error_bind
    (fault : ε)
    (next : α → Except ε β) :
    ((Except.error fault : Except ε α) >>= next) = .error fault :=
  rfl

/-- A computation that returns a value ends without a fault. -/
@[simp]
theorem pure_eq_ok (result : α) :
    (pure result : Except ε α) = .ok result :=
  rfl

/--
Two steps succeed if the first one does, and the second one on its result.
-/
theorem bind_eq_ok_iff
    {first : Except ε α}
    {next : α → Except ε β}
    {result : β} :
    (first >>= next) = .ok result ↔
      ∃ between, first = .ok between ∧ next between = .ok result := by
  cases first with
  | ok between =>
      simp
  | error fault =>
      simp

instance decidableForallOk
    (first : Except ε α)
    (property : α → Prop)
    [DecidablePred property] :
    Decidable (∀ result, first = .ok result → property result) :=
  match first with
  | .ok result => decidable_of_iff (property result) (by simp)
  | .error _ => isTrue (by simp)

/-- A result that is changed at the end is there before. -/
theorem map_eq_ok_iff
    {first : Except ε α}
    {change : α → β}
    {result : β} :
    first.map change = .ok result ↔
      ∃ between, first = .ok between ∧ change between = result := by
  cases first with
  | ok between =>
      simp [Except.map]
  | error fault =>
      simp [Except.map]

/-- A change of the result is made by the last step. -/
theorem map_bind
    (first : Except ε α)
    (next : α → Except ε β)
    (change : β → γ) :
    (first >>= next).map change = first >>= fun between =>
      (next between).map change := by
  cases first with
  | ok between =>
      rfl
  | error fault =>
      rfl

/-- A result that is changed is handed on as it was changed. -/
theorem bind_map
    (first : Except ε α)
    (change : α → β)
    (next : β → Except ε γ) :
    (first.map change >>= next) = first >>= fun between =>
      next (change between) := by
  cases first with
  | ok between =>
      rfl
  | error fault =>
      rfl

/-- A computation that gives a value ends without a fault. -/
theorem eq_ok_of_toOption
    {computation : Except ε α}
    {result : α}
    (gives : computation.toOption = some result) :
    computation = .ok result := by
  cases computation with
  | ok value =>
      cases gives
      rfl
  | error fault =>
      cases gives

/--
Steps over a list succeed if every one does; their results stand in the same
order.
-/
theorem mapM_eq_ok_iff
    {step : α → Except ε β}
    {items : List α}
    {results : List β} :
    items.mapM step = .ok results ↔
      List.Forall₂
        (fun item result => step item = .ok result) items results := by
  induction items generalizing results with
  | nil =>
      simp [eq_comm]
  | cons item rest inductionHypothesis =>
      simp only [List.mapM_cons, bind_eq_ok_iff, inductionHypothesis,
        pure_eq_ok, Except.ok.injEq, List.forall₂_cons_left_iff]
      constructor
      · rintro ⟨first, isFirst, others, areOthers, rfl⟩
        exact ⟨first, others, isFirst, areOthers, rfl⟩
      · rintro ⟨first, others, isFirst, areOthers, rfl⟩
        exact ⟨first, isFirst, others, areOthers, rfl⟩

/-- Every result of steps over a list comes from one of its items. -/
theorem exists_of_mem_mapM
    {step : α → Except ε β}
    {items : List α}
    {results : List β}
    (areResults : items.mapM step = .ok results)
    {result : β}
    (isIn : result ∈ results) :
    ∃ item ∈ items, step item = .ok result := by
  rw [mapM_eq_ok_iff] at areResults
  induction areResults with
  | nil =>
      cases isIn
  | @cons item _ _ _ isResult _ inductionHypothesis =>
      rcases List.mem_cons.mp isIn with rfl | inRest
      · exact ⟨item, List.mem_cons_self, isResult⟩
      · obtain ⟨other, isOther, isResult⟩ := inductionHypothesis inRest
        exact ⟨other, List.mem_cons_of_mem _ isOther, isResult⟩

/-- Steps over the numbers below a bound give one result for each of them. -/
theorem mapM_range_eq_ok_iff
    {step : Nat → Except ε β}
    {count : Nat}
    {results : List β} :
    (List.range count).mapM step = .ok results ↔
      results.length = count ∧
        ∀ index (inside : index < results.length),
          step index = .ok results[index] := by
  rw [mapM_eq_ok_iff, List.forall₂_iff_get]
  constructor
  · rintro ⟨sameLength, steps⟩
    simp only [List.length_range] at sameLength
    refine ⟨sameLength.symm, fun index inside => ?_⟩
    simpa using steps index (by simp only [List.length_range]; omega) inside
  · rintro ⟨rfl, steps⟩
    refine ⟨List.length_range, fun index _ inside => ?_⟩
    simpa using steps index inside

/--
Steps over the numbers below a bound succeed together if each of them does.
-/
theorem exists_mapM_range_eq_ok
    {step : Nat → Except ε β}
    {count : Nat}
    (steps : ∀ index < count, ∃ result, step index = .ok result) :
    ∃ results, (List.range count).mapM step = .ok results := by
  induction count with
  | zero =>
      exact ⟨[], rfl⟩
  | succ count inductionHypothesis =>
      obtain ⟨results, areResults⟩ :=
        inductionHypothesis fun index inside => steps index (by omega)
      obtain ⟨last, isLast⟩ := steps count (by omega)
      refine ⟨results ++ [last], ?_⟩
      simp [List.range_succ, areResults, isLast]

/-- Results for all items of a list can be put into a list. -/
theorem exists_forall₂
    {relation : α → β → Prop}
    {items : List α}
    (results : ∀ item ∈ items, ∃ result, relation item result) :
    ∃ found, List.Forall₂ relation items found := by
  induction items with
  | nil =>
      exact ⟨[], .nil⟩
  | cons item rest inductionHypothesis =>
      obtain ⟨first, others⟩ := List.forall_mem_cons.mp results
      obtain ⟨result, isResult⟩ := first
      obtain ⟨found, areFound⟩ := inductionHypothesis others
      exact ⟨result :: found, .cons isResult areFound⟩

/-- Steps over a list succeed together if each of them does from every state. -/
theorem exists_foldlM_eq_ok
    {step : β → α → Except ε β}
    {items : List α}
    (steps : ∀ state, ∀ item ∈ items, ∃ next, step state item = .ok next)
    (start : β) :
    ∃ result, items.foldlM step start = .ok result := by
  induction items generalizing start with
  | nil =>
      exact ⟨start, rfl⟩
  | cons item rest inductionHypothesis =>
      obtain ⟨next, isNext⟩ := steps start item List.mem_cons_self
      obtain ⟨result, isResult⟩ :=
        inductionHypothesis
          (fun state later inRest =>
            steps state later (List.mem_cons_of_mem _ inRest)) next
      exact ⟨result, by rw [List.foldlM_cons, isNext, ok_bind, isResult]⟩

/-- What steps keep of the state holds of the state that they lead to. -/
theorem holds_of_foldlM_eq_ok
    {step : β → α → Except ε β}
    {items : List α}
    {holds : β → Prop}
    {start result : β}
    (isResult : items.foldlM step start = .ok result)
    (starts : holds start)
    (keeps :
      ∀ state, holds state → ∀ item ∈ items, ∀ next,
        step state item = .ok next → holds next) :
    holds result := by
  induction items generalizing start with
  | nil =>
      cases isResult
      exact starts
  | cons item rest inductionHypothesis =>
      rw [List.foldlM_cons, bind_eq_ok_iff] at isResult
      obtain ⟨next, isNext, isResult⟩ := isResult
      exact inductionHypothesis isResult
        (keeps start starts item List.mem_cons_self next isNext)
        fun state isState later inRest =>
          keeps state isState later (List.mem_cons_of_mem _ inRest)

/-- If steps over a list succeed together, each of them does from some state. -/
theorem exists_step_of_foldlM_eq_ok
    {step : β → α → Except ε β}
    {items : List α}
    {start result : β}
    {item : α}
    (isResult : items.foldlM step start = .ok result)
    (isItem : item ∈ items) :
    ∃ state next, step state item = .ok next := by
  induction items generalizing start with
  | nil =>
      cases isItem
  | cons first rest inductionHypothesis =>
      rw [List.foldlM_cons, bind_eq_ok_iff] at isResult
      obtain ⟨next, isNext, isResult⟩ := isResult
      rcases List.mem_cons.mp isItem with rfl | inRest
      · exact ⟨start, next, isNext⟩
      · exact inductionHypothesis isResult inRest

/-- Steps that agree on all items of a list lead to the same result. -/
theorem foldlM_congr
    {first second : β → α → Except ε β}
    {items : List α}
    (same : ∀ state, ∀ item ∈ items, first state item = second state item)
    (start : β) :
    items.foldlM first start = items.foldlM second start := by
  induction items generalizing start with
  | nil =>
      rfl
  | cons item rest inductionHypothesis =>
      have sameRest :
          ∀ state, ∀ later ∈ rest, first state later = second state later :=
        fun state later inRest =>
          same state later (List.mem_cons_of_mem _ inRest)
      simp only [List.foldlM_cons, same start item List.mem_cons_self,
        inductionHypothesis sameRest]

end Outcome

end EvmStorage
