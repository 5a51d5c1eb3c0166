import TableParsing.Proofs.ShiftReduce.Stack
import TableParsing.Proofs.ShiftReduce.ViablePrefixes

/-!
# Every stack can be completed to a sentence

The symbols of a linked stack lead from the first state to the one on top
(`Linked.follow?`).  In a productive grammar the items there are valid, so that a
rightmost derivation goes on from the symbols of the stack, and what it puts
behind them can be derived to a word: no linked stack is a dead end
(`Linked.exists_sentence`).
-/

namespace TableParsing.ShiftReduce

variable {grammar : Grammar} {frames : List Frame}

/-- The automaton goes along the symbols of a linked stack. -/
theorem Linked.follow? {automaton : Automaton} (h : Linked automaton frames) :
    automaton.follow? 0 (spelled frames) = some (topState frames) := by
  induction frames with
  | nil => rfl
  | cons frame below ih =>
      rw [spelled_cons]
      exact Automaton.follow?_concat_eq_some_iff.mpr ⟨topState below, ih h.2, h.1⟩

/-- The new start symbol stands behind no dot, so it is on no stack. -/
theorem Linked.augmentedStart_not_mem (h : Linked (Automaton.ofGrammar grammar) frames) :
    grammar.augmentedStart ∉ spelled frames := by
  induction frames with
  | nil => exact List.not_mem_nil
  | cons frame below ih =>
      obtain ⟨items, _, item, _, hnext⟩ := Automaton.exists_transition?_iff.mp ⟨_, h.1⟩
      rw [spelled_cons, List.mem_append, List.mem_singleton, not_or]
      refine ⟨ih h.2, ?_⟩
      rintro hsame
      rw [← hsame] at hnext
      exact Grammar.augmentedStart_not_mem_augmented_body _ (List.mem_of_getElem? hnext)

/-- Some word completes a linked stack to a sentence. -/
theorem Linked.exists_sentence (hproductive : grammar.Productive)
    (h : Linked (Automaton.ofGrammar grammar) frames) :
    ∃ word, IsWord word ∧ grammar.Derives [grammar.start] (spelled frames ++ word) := by
  obtain ⟨item, hitem⟩ := Automaton.exists_mem_itemsAt_of_follow? h.follow?
  have hvalid := Automaton.validFor_of_follow? hproductive h.follow? item hitem
  obtain ⟨word, hword, hderives⟩ := hvalid.exists_derivesRight
  obtain ⟨middle, hmiddle, hbehind⟩ := item.exists_word_of_behind hproductive.augmented
  have hsentence := hderives.derives.trans (hbehind.inContext (spelled frames) word)
  have hrest := isWord_append.mpr ⟨hmiddle, hword⟩
  rw [List.append_assoc] at hsentence
  refine ⟨middle ++ word, hrest, ?_⟩
  rcases Grammar.derives_of_augmented_derives hsentence with hstart | ⟨_, hown⟩
  · -- the new start symbol is neither on the stack nor in a word
    have hmem : grammar.augmentedStart ∈ spelled frames ++ (middle ++ word) := by simp [hstart]
    rcases List.mem_append.mp hmem with hstack | hnew
    · exact absurd hstack h.augmentedStart_not_mem
    · cases hrest _ hnew
  · exact hown

end TableParsing.ShiftReduce
