import EvmStorage.Proofs.Requests

namespace EvmStorage

/-!
# Readings that return

A reading returns a value if it does so whatever words it is given.  It may
ask for the words of slots that exist only, and it is run against a provider
that has a word for each of them, not always the same one.
-/

namespace Word

/-- Bytes that fit into a word are made a whole one. -/
theorem length_of_ofBytes
    {content word : Bytes}
    (isWord : ofBytes content = .ok word) :
    word.length = slotSize := by
  unfold ofBytes at isWord
  split at isWord
  · cases isWord
  · next fits =>
      rw [← Except.ok.inj isWord, List.length_leftpad]
      omega

/-- What is meant by a raw value is a whole word. -/
theorem length_of_ofRaw
    {raw : Value}
    {word : Bytes}
    (isWord : ofRaw raw = .ok word) :
    word.length = slotSize := by
  cases raw with
  | int n =>
      simp only [ofRaw] at isWord
      split at isWord
      · rw [← Except.ok.inj isWord]
        exact Bytes.length_ofNat _ _
      · cases isWord
  | text s =>
      simp only [ofRaw] at isWord
      split at isWord
      · exact length_of_ofBytes isWord
      · cases isWord
  | bytes content =>
      exact length_of_ofBytes isWord
  | _ =>
      cases isWord

end Word

/-- Whether a reading returns a value, whatever whole words it is given. -/
inductive Reading.Returns : Reading α → Prop where
  | done
      (value : α) :
      Returns (.done (.ok value))
  | word
      {slot : Int}
      {next : Bytes → Reading α}
      (inside : inSlotSpace slot)
      (goesOn : ∀ word, word.length = slotSize → Returns (next word)) :
      Returns (.word slot next)

/--
A reading of consecutive slots returns if there is a result for all words.
-/
theorem Reading.returns_slots
    {result : List Bytes → Except Fault α}
    (start : Int)
    (count : Nat)
    (returns :
      ∀ words : List Bytes,
        words.length = count →
        (∀ word ∈ words, word.length = slotSize) →
        ∃ value, result words = .ok value) :
    (Reading.slots start count fun words => .done (result words)).Returns := by
  induction count generalizing start result with
  | zero =>
      obtain ⟨value, isValue⟩ := returns [] rfl (fun _ isIn => nomatch isIn)
      rw [Reading.slots, isValue]
      exact .done value
  | succ count inductionHypothesis =>
      refine .word (inSlotSpace_emod start) fun word wholeWord => ?_
      apply inductionHypothesis
      intro words isLength wholeWords
      exact returns (word :: words) (by rw [List.length_cons, isLength])
        (List.forall_mem_cons.mpr ⟨wholeWord, wholeWords⟩)

namespace Provider

/--
Whether a provider in a state answers with a word for every slot that exists, at
an address and a block, and goes on to do so after every answer.
-/
def Answers
    (provider : Provider σ)
    (address : String)
    (block : Value)
    (state : σ) :
    Prop :=
  ∃ answering : σ → Prop,
    answering state ∧
      ∀ current,
        answering current →
        ∀ slot,
          inSlotSpace slot = true →
          (∃ raw word,
            (provider { address, slot, block } current).1 = .value raw ∧
              Word.ofRaw raw = .ok word) ∧
            answering (provider { address, slot, block } current).2

variable {provider : Provider σ} {address : String} {block : Value} {state : σ}

/-- A slot that exists has a whole word, and the provider goes on to answer. -/
theorem Answers.exists_word
    (answers : provider.Answers address block state)
    {slot : Int}
    (inside : inSlotSpace slot = true) :
    ∃ word,
      (provider { address, slot, block } state).1.word
        { address, slot, block } = .ok word ∧
        word.length = slotSize ∧
        provider.Answers address block
          (provider { address, slot, block } state).2 := by
  obtain ⟨answering, isAnswering, goesOn⟩ := answers
  obtain ⟨⟨raw, word, answered, isWord⟩, isAnsweringLater⟩ :=
    goesOn state isAnswering slot inside
  exact
    ⟨word, by rw [answered, Answer.word, isWord], Word.length_of_ofRaw isWord,
    answering, isAnsweringLater, goesOn⟩

/--
A reading that returns is run to its end by a provider that always answers.
-/
theorem Answers.exists_run
    (answers : provider.Answers address block state)
    (canShow : block.canShow)
    {reading : Reading α}
    (returns : reading.Returns) :
    ∃ value, (provider.run address block reading state).1 = .ok value := by
  induction returns generalizing state with
  | done value =>
      exact ⟨value, rfl⟩
  | word inside goesOn inductionHypothesis =>
      obtain ⟨word, answered, wholeWord, answersLater⟩ :=
        answers.exists_word inside
      obtain ⟨value, isValue⟩ := inductionHypothesis word wholeWord answersLater
      exact ⟨value, by rw [run_word_of_ok canShow answered, isValue]⟩

end Provider

end EvmStorage
