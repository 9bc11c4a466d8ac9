import EvmStorage.Proofs.HandleKeys

namespace EvmStorage.HandleCache

/-!
# Runs of a cache of handles

A cache is asked for handles and cleared, in whatever order. The handles that
it finds have distinct keys and are numbered in the order in which they were
made; a key keeps its handle until the cache is cleared, and a handle that is
made later has a greater number than all before it. So a handle that is
returned tells the address and the description that it was first asked for by.
-/

open Json (IsDocument SameDocument)
open Address (SameAddress)

/-- What a cache is asked for. -/
inductive Event where
  | get (address description : Value)
  | clear

/--
Whether an event asks for a description without floating-point numbers, if for
any.
-/
def Event.IsPlain : Event → Prop
  | .get _ description => IsDocument description
  | .clear => True

/-- The cache after an event; if there is no handle, it is left as it was. -/
def after
    (hash : Digest)
    (cache : HandleCache) :
    Event →
    HandleCache
  | .get address description =>
      match cache.get hash address description with
      | .ok (_, later) => later
      | .error _ => cache
  | .clear => cache.clear

/-- The cache after one event after the other. -/
def afterAll
    (hash : Digest)
    (cache : HandleCache)
    (events : List Event) :
    HandleCache :=
  events.foldl (after hash) cache

/-- The cache after a run that begins without handles. -/
def run
    (hash : Digest)
    (events : List Event) :
    HandleCache :=
  afterAll hash empty events

/-- Whether a get returns a handle after a run. -/
def Returns
    (hash : Digest)
    (events : List Event)
    (address description : Value)
    (handle : Handle) :
    Prop :=
  ∃ later, (run hash events).get hash address description = .ok (handle, later)

/-- The handle that a cache makes next. -/
def nextHandle
    (cache : HandleCache)
    (key : HandleKey)
    (description : Value) :
    Handle where
  serial := cache.made + 1
  address := key.address
  description := description

/-- A cache with one more handle. -/
def add
    (cache : HandleCache)
    (key : HandleKey)
    (handle : Handle) :
    HandleCache where
  entries := cache.entries ++ [(key, handle)]
  made := cache.made + 1

variable {hash : Digest} {cache later : HandleCache} {events : List Event}
  {event : Event}
variable {address description : Value} {key otherKey : HandleKey}
  {handle other : Handle}

section Steps

/-- A get finds the handle of its key, or makes the next one. -/
theorem cases_of_get
    (returns : cache.get hash address description = .ok (handle, later)) :
    ∃ key,
      keyOf hash address description = .ok key ∧
        ((cache.find? key = some handle ∧ later = cache) ∨
          (cache.find? key = none ∧ handle = cache.nextHandle key description ∧
            later = cache.add key handle)) := by
  rw [get, Outcome.bind_eq_ok_iff] at returns
  obtain ⟨key, isKey, returns⟩ := returns
  refine ⟨key, isKey, ?_⟩
  split at returns
  · next found isFound =>
      cases returns
      exact .inl ⟨isFound, rfl⟩
  · next notFound =>
      cases returns
      exact .inr ⟨notFound, rfl, rfl⟩

/-- There is a handle for every key. -/
theorem exists_get
    (isKey : keyOf hash address description = .ok key) :
    ∃ handle later,
      cache.get hash address description = .ok (handle, later) := by
  rw [get, isKey, Outcome.ok_bind]
  cases cache.find? key with
  | some handle =>
      exact ⟨handle, cache, rfl⟩
  | none =>
      exact ⟨_, _, rfl⟩

theorem after_of_get
    (returns : cache.get hash address description = .ok (handle, later)) :
    after hash cache (.get address description) = later := by
  simp only [after, returns]

theorem mem_of_find?
    (found : cache.find? key = some handle) :
    (key, handle) ∈ cache.entries := by
  obtain ⟨entry, isFound, rfl⟩ := Option.map_eq_some_iff.mp found
  have isKey := List.find?_some isFound
  rw [← of_decide_eq_true isKey]
  exact List.mem_of_find?_eq_some isFound

theorem find?_add
    (notFound : cache.find? key = none) :
    (cache.add key handle).find? key = some handle := by
  rw [find?, Option.map_eq_none_iff] at notFound
  simp [add, find?, List.find?_append, notFound]

theorem find?_add_of_some
    (found : cache.find? otherKey = some other) :
    (cache.add key handle).find? otherKey = some other := by
  obtain ⟨entry, isFound, rfl⟩ := Option.map_eq_some_iff.mp found
  simp [add, find?, List.find?_append, isFound]

/-- The handle that a get returns is found afterwards. -/
theorem find?_of_get
    (isKey : keyOf hash address description = .ok key)
    (returns : cache.get hash address description = .ok (handle, later)) :
    later.find? key = some handle := by
  obtain ⟨other, isOther, isFound | ⟨notFound, _, rfl⟩⟩ := cases_of_get returns
  · obtain rfl := Except.ok.inj (isKey.symm.trans isOther)
    exact isFound.2 ▸ isFound.1
  · obtain rfl := Except.ok.inj (isKey.symm.trans isOther)
    exact find?_add notFound

/--
Whether a cache has one handle for each key, numbered in the order in which
they were made.
-/
structure Numbered (cache : HandleCache) : Prop where
  distinct : (cache.entries.map Prod.fst).Nodup
  increasing : (cache.entries.map fun entry => entry.2.serial).Pairwise (· < ·)
  atMost : ∀ entry ∈ cache.entries, entry.2.serial ≤ cache.made

theorem numbered_empty : Numbered empty :=
  ⟨.nil, .nil, nofun⟩

/-- A handle has one key. -/
theorem Numbered.key_eq
    (numbered : cache.Numbered)
    (found : cache.find? key = some handle)
    (alsoFound : cache.find? otherKey = some handle) :
    key = otherKey := by
  have distinctSerials :
      (cache.entries.map fun entry => entry.2.serial).Nodup :=
    numbered.increasing.imp fun less => Nat.ne_of_lt less
  have sameEntry :=
    List.inj_on_of_nodup_map distinctSerials (mem_of_find? found)
      (mem_of_find? alsoFound) rfl
  exact (Prod.mk.inj sameEntry).1

/-- The next handle has a new key and a greater number than all before it. -/
theorem Numbered.add
    (numbered : cache.Numbered)
    (notFound : cache.find? key = none) :
    (cache.add key (cache.nextHandle key description)).Numbered where
  distinct := by
    have isNew : key ∉ cache.entries.map Prod.fst := by
      intro isIn
      obtain ⟨entry, isEntry, isKey⟩ := List.mem_map.mp isIn
      rw [find?, Option.map_eq_none_iff, List.find?_eq_none] at notFound
      exact notFound entry isEntry (decide_eq_true isKey)
    simp only [HandleCache.add, List.map_append, List.map_cons, List.map_nil]
    refine List.nodup_append.mpr ⟨numbered.distinct,
      List.nodup_singleton key, ?_⟩
    rintro other isOther last isLast rfl
    exact isNew (List.mem_singleton.mp isLast ▸ isOther)
  increasing := by
    simp only [HandleCache.add, List.map_append, List.map_cons, List.map_nil]
    refine List.pairwise_append.mpr ⟨numbered.increasing,
      List.pairwise_singleton _ _, ?_⟩
    intro serial isSerial last isLast
    obtain ⟨entry, isEntry, rfl⟩ := List.mem_map.mp isSerial
    rw [List.mem_singleton.mp isLast]
    exact Nat.lt_succ_of_le (numbered.atMost entry isEntry)
  atMost entry isEntry := by
    rcases List.mem_append.mp isEntry with isOld | isNew
    · exact (numbered.atMost entry isOld).trans (Nat.le_succ _)
    · rw [List.mem_singleton.mp isNew]
      exact le_rfl

/--
An event leaves the cache as it was, adds the next handle to it, or clears it.
-/
theorem cases_of_after
    (hash : Digest)
    (cache : HandleCache)
    (event : Event) :
    (event = .clear ∧ after hash cache event = cache.clear) ∨
      (event ≠ .clear ∧ after hash cache event = cache) ∨
      ∃ address description key,
        event = .get address description ∧
          keyOf hash address description = .ok key ∧
          cache.find? key = none ∧
          after hash cache event =
            cache.add key (cache.nextHandle key description) := by
  cases event with
  | clear =>
      exact .inl ⟨rfl, rfl⟩
  | get address description =>
      right
      cases returns : cache.get hash address description with
      | error fault =>
          exact .inl ⟨nofun, by simp only [after, returns]⟩
      | ok returned =>
          obtain ⟨handle, later⟩ := returned
          rw [after_of_get returns]
          obtain ⟨key, isKey, ⟨-, isSame⟩ | ⟨notFound, isNext, isAdded⟩⟩ :=
            cases_of_get returns
          · exact .inl ⟨nofun, isSame⟩
          · exact .inr ⟨address, description, key, rfl, isKey, notFound,
              isNext ▸ isAdded⟩

/-- Every event keeps the handles numbered. -/
theorem Numbered.after
    (numbered : cache.Numbered)
    (event : Event) :
    (after hash cache event).Numbered := by
  rcases cases_of_after hash cache event with
    ⟨-, isCleared⟩ | ⟨-, isSame⟩ | ⟨_, _, _, -, -, notFound, isAdded⟩
  · rw [isCleared]
    exact ⟨.nil, .nil, nofun⟩
  · rw [isSame]
    exact numbered
  · rw [isAdded]
    exact numbered.add notFound

end Steps

section Runs

theorem afterAll_append (earlier events : List Event) :
    afterAll hash cache (earlier ++ events) =
      afterAll hash (afterAll hash cache earlier) events :=
  List.foldl_append

theorem run_append (earlier events : List Event) :
    run hash (earlier ++ events) = afterAll hash (run hash earlier) events :=
  afterAll_append earlier events

/-- The handles of every run are numbered. -/
theorem Numbered.afterAll
    (numbered : cache.Numbered)
    (events : List Event) :
    (afterAll hash cache events).Numbered := by
  induction events generalizing cache with
  | nil =>
      exact numbered
  | cons event events inductionHypothesis =>
      exact inductionHypothesis (numbered.after event)

theorem numbered_run (hash : Digest) (events : List Event) :
    (run hash events).Numbered :=
  numbered_empty.afterAll events

theorem made_le_after (event : Event) :
    cache.made ≤ (after hash cache event).made := by
  rcases cases_of_after hash cache event with
    ⟨-, isCleared⟩ | ⟨-, isSame⟩ | ⟨_, _, _, -, -, -, isAdded⟩
  · rw [isCleared]
    exact le_rfl
  · rw [isSame]
  · rw [isAdded]
    exact Nat.le_succ _

theorem made_le_afterAll (events : List Event) :
    cache.made ≤ (afterAll hash cache events).made := by
  induction events generalizing cache with
  | nil =>
      exact le_rfl
  | cons event events inductionHypothesis =>
      exact (made_le_after event).trans inductionHypothesis

/-- A key keeps its handle until the cache is cleared. -/
theorem find?_afterAll
    (found : cache.find? key = some handle)
    (notCleared : Event.clear ∉ events) :
    (afterAll hash cache events).find? key = some handle := by
  induction events generalizing cache with
  | nil =>
      exact found
  | cons event events inductionHypothesis =>
      obtain ⟨isOther, restNotCleared⟩ :=
        not_or.mp (mt List.mem_cons.mpr notCleared)
      refine inductionHypothesis ?_ restNotCleared
      rcases cases_of_after hash cache event with
        ⟨isClear, -⟩ | ⟨-, isSame⟩ | ⟨_, _, _, -, -, -, isAdded⟩
      · exact absurd isClear.symm isOther
      · rw [isSame]
        exact found
      · rw [isAdded]
        exact find?_add_of_some found

/--
A handle that was not there before has a greater number than all that were
made.
-/
theorem mem_or_made_lt
    {entry : HandleKey × Handle}
    (isEntry : entry ∈ (afterAll hash cache events).entries) :
    entry ∈ cache.entries ∨ cache.made < entry.2.serial := by
  induction events generalizing cache with
  | nil =>
      exact .inl isEntry
  | cons event events inductionHypothesis =>
      rcases inductionHypothesis isEntry with wasThere | isLater
      · rcases cases_of_after hash cache event with
          ⟨-, isCleared⟩ | ⟨-, isSame⟩ | ⟨_, _, _, -, -, -, isAdded⟩
        · rw [isCleared] at wasThere
          cases wasThere
        · exact .inl (isSame ▸ wasThere)
        · rw [isAdded] at wasThere
          rcases List.mem_append.mp wasThere with isOld | isNew
          · exact .inl isOld
          · rw [List.mem_singleton.mp isNew]
            exact .inr (Nat.lt_succ_self _)
      · exact .inr ((made_le_after event).trans_lt isLater)

/-- Behind a clear there are only handles that were made later. -/
theorem made_lt_of_cleared
    {entry : HandleKey × Handle}
    (isEntry : entry ∈ (afterAll hash cache.clear events).entries) :
    cache.made < entry.2.serial := by
  rcases mem_or_made_lt isEntry with wasThere | isLater
  · cases wasThere
  · exact isLater

/-- A handle that is returned is found under the key of what was asked for. -/
theorem Returns.find?_eq
    (returns : Returns hash events address description handle)
    (isKey : keyOf hash address description = .ok key) :
    (run hash (events ++ [.get address description])).find? key =
      some handle := by
  obtain ⟨later, returns⟩ := returns
  rw [run_append]
  change (after hash (run hash events) (.get address description)).find? key =
    some handle
  rw [after_of_get returns]
  exact find?_of_get isKey returns

theorem Returns.exists_key
    (returns : Returns hash events address description handle) :
    ∃ key, keyOf hash address description = .ok key := by
  obtain ⟨later, returns⟩ := returns
  obtain ⟨key, isKey, -⟩ := cases_of_get returns
  exact ⟨key, isKey⟩

/--
There is a handle for an address and a description that can be written, and for
nothing else.
-/
theorem exists_returns_iff :
    (∃ handle, Returns hash events address description handle) ↔
      (∃ content, Address.Denotes address content) ∧ description.canShow := by
  constructor
  · rintro ⟨handle, returns⟩
    obtain ⟨key, isKey⟩ := returns.exists_key
    obtain ⟨content, denotes, canShow, -⟩ := keyOf_eq_ok_iff.mp isKey
    exact ⟨⟨content, denotes⟩, canShow⟩
  · rintro ⟨⟨content, denotes⟩, canShow⟩
    have isKey := (@keyOf_eq_ok_iff hash address description _).mpr
      ⟨content, denotes, canShow, rfl⟩
    exact exists_get isKey

/--
Without a handle that is returned there is a fault, and the cache is left as it
was.
-/
theorem refused_of_not_returns
    (noHandle : ∀ handle, ¬ Returns hash events address description handle) :
    (∃ fault, (run hash events).get hash address description = .error fault) ∧
      run hash (events ++ [.get address description]) = run hash events := by
  cases isOutcome : (run hash events).get hash address description with
  | ok returned =>
      obtain ⟨handle, later⟩ := returned
      exact absurd ⟨later, isOutcome⟩ (noHandle handle)
  | error fault =>
      refine ⟨⟨fault, rfl⟩, ?_⟩
      rw [run_append]
      change after hash (run hash events) (.get address description) =
        run hash events
      simp only [after, isOutcome]

/-- A handle that is returned has a number that was given to a handle. -/
theorem Returns.serial_le
    (returns : Returns hash events address description handle) :
    handle.serial ≤ (run hash (events ++ [.get address description])).made := by
  obtain ⟨key, isKey⟩ := returns.exists_key
  exact (numbered_run hash _).atMost _ (mem_of_find? (returns.find?_eq isKey))

end Runs

section Identity

variable {earlier between : List Event} {otherAddress otherDescription : Value}

/--
Handles that are returned without a clear between them are equal if their keys
are.
-/
theorem Returns.eq_iff
    (returns : Returns hash earlier address description handle)
    (alsoReturns :
      Returns hash
        (earlier ++ .get address description :: between) otherAddress
        otherDescription
        other)
    (isKey : keyOf hash address description = .ok key)
    (isOtherKey : keyOf hash otherAddress otherDescription = .ok otherKey)
    (notCleared : Event.clear ∉ between) :
    handle = other ↔ key = otherKey := by
  have found := returns.find?_eq isKey
  have alsoFound := alsoReturns.find?_eq isOtherKey
  have stillNotCleared :
      Event.clear ∉ between ++ [.get otherAddress otherDescription] := by
    simpa using notCleared
  have isRun :
      earlier ++ .get address description :: between ++
        [.get otherAddress otherDescription] =
        earlier ++ [.get address description] ++
          (between ++ [.get otherAddress otherDescription]) := by
    simp
  rw [isRun] at alsoFound
  have stillFound := @find?_afterAll hash _ _ _ _ found stillNotCleared
  rw [← run_append] at stillFound
  constructor
  · rintro rfl
    exact (numbered_run hash _).key_eq stillFound alsoFound
  · rintro rfl
    exact Option.some.inj (stillFound.symm.trans alsoFound)

/-- A handle that is returned after a clear was not returned before it. -/
theorem Returns.ne_of_cleared
    (returns : Returns hash earlier address description handle)
    (alsoReturns :
      Returns hash
        (earlier ++ .get address description :: between) otherAddress
        otherDescription
        other)
    (cleared : Event.clear ∈ between) :
    handle ≠ other := by
  obtain ⟨before, behind, rfl⟩ := List.append_of_mem cleared
  obtain ⟨otherKey, isOtherKey⟩ := alsoReturns.exists_key
  have isEntry := mem_of_find? (alsoReturns.find?_eq isOtherKey)
  have isRun :
      earlier ++ .get address description :: (before ++ .clear :: behind) ++
          [.get otherAddress otherDescription] =
        earlier ++ [.get address description] ++ before ++
          (.clear :: (behind ++ [.get otherAddress otherDescription])) := by
    simp
  rw [isRun, run_append, run_append] at isEntry
  have isLater := made_lt_of_cleared isEntry
  rintro rfl
  exact absurd (returns.serial_le.trans (made_le_afterAll before))
    (not_le.mpr isLater)

/--
Whether a handle was made by a get of a run, for its key, and has not been
cleared since.
-/
structure MadeBy
    (hash : Digest)
    (earlier between : List Event)
    (address description : Value)
    (key : HandleKey)
    (handle : Handle) :
    Prop where
  isKey : keyOf hash address description = .ok key
  isNew : (run hash earlier).find? key = none
  isNext : handle = (run hash earlier).nextHandle key description
  notCleared : Event.clear ∉ between

/-- Every handle of a cache was made by a get of the run. -/
theorem exists_madeBy
    (isEntry : (key, handle) ∈ (run hash events).entries) :
    ∃ earlier between address description,
      events = earlier ++ .get address description :: between ∧
        MadeBy hash earlier between address description key handle := by
  induction events using List.reverseRecOn with
  | nil =>
      cases isEntry
  | append_singleton events event inductionHypothesis =>
      rw [run_append] at isEntry
      change (key, handle) ∈
        (after hash (run hash events) event).entries at isEntry
      have ofOld (isOther : event ≠ .clear)
        (wasThere : (key, handle) ∈ (run hash events).entries) :
          ∃ earlier between address description,
            events ++ [event] = earlier ++ .get address description :: between ∧
              MadeBy hash earlier between address description key handle := by
        obtain ⟨earlier, between, address, description, rfl, madeBy⟩ :=
          inductionHypothesis wasThere
        refine ⟨earlier, between ++ [event], address, description, by simp, ?_⟩
        exact { madeBy with
          notCleared := by simpa using ⟨madeBy.notCleared, Ne.symm isOther⟩ }
      rcases cases_of_after hash (run hash events) event with
        ⟨-, isCleared⟩ | ⟨isOther, isSame⟩ |
          ⟨address, description, newKey, rfl, isKey, notFound, isAdded⟩
      · rw [isCleared] at isEntry
        cases isEntry
      · exact ofOld isOther (isSame ▸ isEntry)
      · rw [isAdded] at isEntry
        rcases List.mem_append.mp isEntry with wasThere | isLast
        · exact ofOld nofun wasThere
        · obtain ⟨rfl, rfl⟩ := Prod.mk.inj (List.mem_singleton.mp isLast)
          exact ⟨events, [], address, description, rfl, isKey, notFound,
            rfl, nofun⟩

/-- The get that makes a handle returns it. -/
theorem MadeBy.returns
    (madeBy : MadeBy hash earlier between address description key handle) :
    Returns hash earlier address description handle := by
  obtain ⟨handle', later, returns⟩ :=
    @exists_get hash (run hash earlier) _ _ _ madeBy.isKey
  obtain ⟨key', isKey, ⟨found, -⟩ | ⟨-, rfl, -⟩⟩ := cases_of_get returns
  · obtain rfl := Except.ok.inj (madeBy.isKey.symm.trans isKey)
    cases madeBy.isNew.symm.trans found
  · obtain rfl := Except.ok.inj (madeBy.isKey.symm.trans isKey)
    rw [madeBy.isNext]
    exact ⟨later, returns⟩

/-- No get returned a handle before it was made. -/
theorem MadeBy.not_returns
    (madeBy : MadeBy hash earlier between address description key handle)
    {before behind : List Event}
    (isEarlier :
      earlier = before ++ .get otherAddress otherDescription :: behind) :
    ¬ Returns hash before otherAddress otherDescription handle := by
  intro returns
  have isRun :
      earlier = before ++ [.get otherAddress otherDescription] ++ behind := by
    simp [isEarlier]
  have bounded : handle.serial ≤ (run hash earlier).made := by
    rw [isRun, run_append]
    exact returns.serial_le.trans (made_le_afterAll behind)
  rw [madeBy.isNext] at bounded
  exact absurd bounded (Nat.not_succ_le_self _)

end Identity

section Counting

/-- Whether two requests ask for the same address and the same description. -/
def SameRequest (request other : Value × Value) : Prop :=
  SameAddress request.1 other.1 ∧ SameDocument request.2 other.2

/--
Whether a handle was returned for a request since the last clear of a run.
-/
def GotSinceClear
    (hash : Digest)
    (events : List Event)
    (request : Value × Value) :
    Prop :=
  ∃ earlier between handle,
    events = earlier ++ .get request.1 request.2 :: between ∧
      Event.clear ∉ between ∧
      Returns hash earlier request.1 request.2 handle

/--
Whether there are so many items of which no two are the same, and every item is
one of them.
-/
def HasDistinct
    (same : α → α → Prop)
    (isItem : α → Prop)
    (count : Nat) :
    Prop :=
  ∃ items : List α,
    items.length = count ∧
      (∀ item ∈ items, isItem item) ∧
      (items.Pairwise fun item other => ¬ same item other) ∧
      ∀ item, isItem item → ∃ other ∈ items, same item other

theorem GotSinceClear.isDocument
    {request : Value × Value}
    (got : GotSinceClear hash events request)
    (arePlain : ∀ event ∈ events, event.IsPlain) :
    IsDocument request.2 := by
  obtain ⟨earlier, between, handle, rfl, -, -⟩ := got
  exact arePlain (.get request.1 request.2) (by simp)

/-- A handle that was got since the last clear is still there. -/
theorem GotSinceClear.exists_find?
    {request : Value × Value}
    (got : GotSinceClear hash events request) :
    ∃ key handle,
      keyOf hash request.1 request.2 = .ok key ∧
        (run hash events).find? key = some handle := by
  obtain ⟨earlier, between, handle, rfl, notCleared, returns⟩ := got
  obtain ⟨key, isKey⟩ := returns.exists_key
  refine ⟨key, handle, isKey, ?_⟩
  rw [List.append_cons, run_append]
  exact find?_afterAll (returns.find?_eq isKey) notCleared

/--
Every handle of a cache was got since the last clear, by a request with its
key.
-/
theorem exists_gotSinceClear
    {entry : HandleKey × Handle}
    (isEntry : entry ∈ (run hash events).entries) :
    ∃ request : Value × Value,
      GotSinceClear hash events request ∧
        keyOf hash request.1 request.2 = .ok entry.1 := by
  obtain ⟨earlier, between, address, description, isRun, madeBy⟩ :=
    exists_madeBy isEntry
  exact ⟨(address, description),
    ⟨earlier, between, _, isRun, madeBy.notCleared, madeBy.returns⟩,
    madeBy.isKey⟩

/--
A cache has as many handles as there are distinct requests since it was
cleared.
-/
theorem hasDistinct_size
    (arePlain : ∀ event ∈ events, event.IsPlain) :
    HasDistinct SameRequest (GotSinceClear hash events)
      (run hash events).size := by
  have made : ∀ entry ∈ (run hash events).entries, ∃ request : Value × Value,
      GotSinceClear hash events request ∧
        keyOf hash request.1 request.2 = .ok entry.1 :=
    fun entry isEntry => exists_gotSinceClear isEntry
  choose! requestOf got isKey using made
  refine ⟨(run hash events).entries.map requestOf, List.length_map ..,
    ?_, ?_, ?_⟩
  · exact List.forall_mem_map.mpr got
  · have distinctKeys :=
      List.pairwise_map.mp (numbered_run hash events).distinct
    refine List.pairwise_map.mpr
      (distinctKeys.imp_of_mem fun isEntry isOther differ same => ?_)
    exact differ
      ((keyOf_eq_iff (isKey _ isEntry) (isKey _ isOther)
        ((got _ isEntry).isDocument arePlain)
        ((got _ isOther).isDocument arePlain)).mpr same)
  · intro request isGot
    obtain ⟨key, handle, hasKey, found⟩ := isGot.exists_find?
    have isEntry := mem_of_find? found
    refine ⟨requestOf (key, handle), List.mem_map_of_mem isEntry, ?_⟩
    exact (keyOf_eq_iff hasKey (isKey _ isEntry) (isGot.isDocument arePlain)
      ((got _ isEntry).isDocument arePlain)).mp rfl

end Counting

/--
Over every run of gets and clears, descriptions being documents: a get returns a
handle exactly if its address denotes one and its description can be written,
and otherwise leaves the cache as it was; without a clear between them, gets
return one handle exactly if they ask for the same address and description, and
with one they return different handles; a handle has the checked address and the
description of the get that first returned it; and there are at all times as
many handles as distinct requests since the last clear.
-/
theorem handles_of_run
    (hash : Digest)
    (events : List Event)
    (arePlain : ∀ event ∈ events, event.IsPlain) :
    (∀ earlier address description later,
        events = earlier ++ .get address description :: later →
          ((∃ handle, Returns hash earlier address description handle) ↔
              (∃ content, Address.Denotes address content) ∧
                description.canShow) ∧
            ((¬ ∃ content, Address.Denotes address content) →
              (∃ fault, (run hash earlier).get hash address description =
                .error fault) ∧
                run hash (earlier ++ [.get address description]) =
                  run hash earlier)) ∧
      (∀ earlier address description between otherAddress otherDescription
          later handle other,
        events =
            earlier ++ .get address description :: between ++
              .get otherAddress otherDescription :: later →
          Returns hash earlier address description handle →
          Returns hash
            (earlier ++ .get address description :: between) otherAddress
            otherDescription other →
          (Event.clear ∉ between →
            (handle = other ↔
              SameAddress address otherAddress ∧
                SameDocument description otherDescription)) ∧
            (Event.clear ∈ between → handle ≠ other)) ∧
      (∀ earlier address description later handle,
        events = earlier ++ .get address description :: later →
          Returns hash earlier address description handle →
          ∃ before creator creation between content,
            earlier ++ [.get address description] =
              before ++ .get creator creation :: between ∧
              Event.clear ∉ between ∧
              Returns hash before creator creation handle ∧
              (∀ previous first second behind,
                before = previous ++ .get first second :: behind →
                  ¬ Returns hash previous first second handle) ∧
              Address.Denotes creator content ∧
              handle.address = Address.checksum hash content ∧
              handle.description = creation) ∧
      ∀ earlier later,
        events = earlier ++ later →
          HasDistinct SameRequest (GotSinceClear hash earlier)
            (run hash earlier).size := by
  refine ⟨?_, ?_, ?_, ?_⟩
  · intro earlier address description later _
    refine ⟨exists_returns_iff,
      fun noAddress => refused_of_not_returns fun handle returns => ?_⟩
    exact noAddress (exists_returns_iff.mp ⟨handle, returns⟩).1
  · intro earlier address description between otherAddress otherDescription
      later handle other isRun returns alsoReturns
    refine ⟨fun notCleared => ?_,
      fun cleared => returns.ne_of_cleared alsoReturns cleared⟩
    obtain ⟨key, isKey⟩ := returns.exists_key
    obtain ⟨otherKey, isOtherKey⟩ := alsoReturns.exists_key
    have isDocument : IsDocument description :=
      arePlain (.get address description) (by simp [isRun])
    have alsoDocument : IsDocument otherDescription :=
      arePlain (.get otherAddress otherDescription) (by simp [isRun])
    rw [returns.eq_iff alsoReturns isKey isOtherKey notCleared,
      keyOf_eq_iff isKey isOtherKey isDocument alsoDocument]
  · intro earlier address description later handle _ returns
    obtain ⟨key, isKey⟩ := returns.exists_key
    obtain ⟨before, between, creator, creation, isCreation, madeBy⟩ :=
      exists_madeBy (mem_of_find? (returns.find?_eq isKey))
    obtain ⟨content, denotes, -, rfl⟩ := keyOf_eq_ok_iff.mp madeBy.isKey
    refine ⟨before, creator, creation, between, content, isCreation,
      madeBy.notCleared,
      madeBy.returns, fun _ _ _ _ isEarlier =>
        madeBy.not_returns isEarlier, denotes, ?_, ?_⟩
    · rw [madeBy.isNext]
      rfl
    · rw [madeBy.isNext]
      rfl
  · rintro earlier later rfl
    exact hasDistinct_size fun event isEvent =>
      arePlain event (List.mem_append_left later isEvent)

section Token

/-- The description of a function, its name in front of its inputs. -/
def tokenDescription : Value :=
  .list [.record [("name", .text "totalSupply"), ("inputs", .list [])]]

/-- The same description with the names in another order. -/
def reorderedDescription : Value :=
  .list [.record [("inputs", .list []), ("name", .text "totalSupply")]]

/-- An address in capitals. -/
def tokenText : Value :=
  .text "0xABABABABABABABABABABABABABABABABABABABAB"

/-- Two gets of one contract, a clear, and the first get again. -/
def tokenRun : List Event :=
  [.get tokenText tokenDescription,
    .get (.bytes (List.replicate 20 0xab)) reorderedDescription,
    .clear,
    .get tokenText tokenDescription]

theorem isDocument_tokenDescription : IsDocument tokenDescription := by
  refine .list (List.forall_mem_singleton.mpr (.record (by decide) ?_))
  exact List.forall_mem_cons.mpr ⟨.text _,
    List.forall_mem_singleton.mpr (.list nofun)⟩

theorem isDocument_reorderedDescription : IsDocument reorderedDescription := by
  refine .list (List.forall_mem_singleton.mpr (.record (by decide) ?_))
  exact List.forall_mem_cons.mpr ⟨.list nofun,
    List.forall_mem_singleton.mpr (.text _)⟩

theorem sameDocument_tokenDescription :
    SameDocument tokenDescription reorderedDescription := by
  refine .list rfl (List.forall_mem_singleton.mpr (.record (fun name => ?_) ?_))
  · simp [or_comm]
  · refine List.forall_mem_cons.mpr ⟨?name,
      List.forall_mem_singleton.mpr ?inputs⟩
    case name =>
      exact List.forall_mem_cons.mpr
        ⟨fun isOther => absurd isOther (by decide),
          List.forall_mem_singleton.mpr fun _ => .text _⟩
    case inputs =>
      exact List.forall_mem_cons.mpr
        ⟨fun _ => .list rfl nofun,
          List.forall_mem_singleton.mpr fun isOther =>
            absurd isOther (by decide)⟩

theorem denotes_tokenText :
    Address.Denotes tokenText (List.replicate 20 0xab) :=
  Address.ofText?_eq_some_iff.mp (by decide +kernel)

/--
One handle for both spellings of a contract, and another one after the clear.
-/
theorem handles_of_tokenRun :
    ∃ handle other,
      Returns Keccak.digest [] tokenText tokenDescription handle ∧
        Returns Keccak.digest (tokenRun.take 1)
          (.bytes (List.replicate 20 0xab)) reorderedDescription handle ∧
        Returns Keccak.digest
          (tokenRun.take 3) tokenText tokenDescription other ∧
        handle ≠ other ∧
        HasDistinct SameRequest (GotSinceClear Keccak.digest tokenRun)
          (run Keccak.digest tokenRun).size := by
  have arePlain : ∀ event ∈ tokenRun, event.IsPlain := by
    simp only [tokenRun, List.forall_mem_cons]
    exact ⟨isDocument_tokenDescription,
      isDocument_reorderedDescription, trivial,
      isDocument_tokenDescription, nofun⟩
  obtain ⟨succeeds, identifies, -, counts⟩ :=
    handles_of_run Keccak.digest tokenRun arePlain
  obtain ⟨handle, returns⟩ :=
    (succeeds [] _ _ _ rfl).1.mpr ⟨⟨_, denotes_tokenText⟩, by decide +kernel⟩
  obtain ⟨same, alsoReturns⟩ :=
    (succeeds (tokenRun.take 1) _ _ _ rfl).1.mpr
      ⟨⟨_, .bytes rfl⟩, by decide +kernel⟩
  obtain ⟨other, returnsOther⟩ :=
    (succeeds (tokenRun.take 3) _ _ _ rfl).1.mpr
      ⟨⟨_, denotes_tokenText⟩, by decide +kernel⟩
  obtain rfl :=
    ((identifies [] _ _ [] _ _ _ handle same rfl returns
      alsoReturns).1 nofun).mpr
      ⟨⟨_, denotes_tokenText, .bytes rfl⟩, sameDocument_tokenDescription⟩
  have differs :=
    (identifies [] _ _
      (tokenRun.take 3).tail _ _ _ handle other rfl returns returnsOther).2
      (by simp [tokenRun])
  exact ⟨handle, other, returns, alsoReturns, returnsOther, differs,
    counts tokenRun [] (by simp)⟩

end Token

end EvmStorage.HandleCache
