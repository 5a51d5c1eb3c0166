import TableParsing.Proofs.Lists
import TableParsing.Proofs.ShiftReduce.Viability
import TableParsing.Proofs.Soundness

/-!
# What has been read can be completed

Neither driver reads an atom with which no sentence can go on.  In a productive
grammar, and whatever the sets that the table was made with, the atoms that were
read by any time of a run begin some sentence (`readsCorrectly_of_stateAfter`), also
in runs that are going to reject.

* The predictive driver keeps the start symbol deriving what was read followed by
  the stack (`Predictive.Parser.Foretells`): its stack is a promise that can be kept.
* The stack of the shift-reduce driver derives what was read
  (`ShiftReduce.Parser.Recounts`), and it is always linked, so that some word
  completes it to a sentence.  Reductions before an erroneous atom change neither.
-/

namespace TableParsing

open Machine

private theorem exists_atoms_of_isWord {word : List Symbol} (h : IsWord word) :
    ∃ atoms : List String, word = atoms.map Symbol.terminal := by
  induction word with
  | nil => exact ⟨[], rfl⟩
  | cons symbol rest ih =>
      obtain ⟨hsymbol, hrest⟩ := isWord_cons.mp h
      obtain ⟨atoms, rfl⟩ := ih hrest
      cases symbol with
      | terminal atom => exact ⟨atom :: atoms, rfl⟩
      | epsilon | nonterminal | endMarker => cases hsymbol

namespace Grammar

variable {grammar : Grammar} {atoms : List String}

/-! ## Beginnings of sentences -/

/-- Some sentence begins with these atoms. -/
def BeginsSentence (grammar : Grammar) (atoms : List String) : Prop :=
  ∃ more, grammar.IsSentence (atoms ++ more)

theorem BeginsSentence.of_append {front back : List String}
    (h : grammar.BeginsSentence (front ++ back)) : grammar.BeginsSentence front := by
  obtain ⟨more, hsentence⟩ := h
  rw [List.append_assoc] at hsentence
  exact ⟨back ++ more, hsentence⟩

/-- The symbols of a sentential form are terminals or have productions. -/
theorem Derives.terminal_or_mem_nonterminals {form : List Symbol}
    (h : grammar.Derives [grammar.start] form) :
    ∀ symbol ∈ form, symbol.isTerminal = true ∨ symbol ∈ grammar.nonterminals := by
  apply h.forall_mem
    (motive := fun symbol => symbol.isTerminal = true ∨ symbol ∈ grammar.nonterminals)
  · intro symbol hsymbol
    rw [List.mem_singleton.mp hsymbol]
    exact .inr start_mem_nonterminals
  · intro production hproduction symbol hsymbol
    rcases terminal_or_nonterminal_of_mem_body hproduction hsymbol with hterminal | hnonterminal
    · exact .inl hterminal
    · exact .inr (mem_nonterminals_of_mem_body hproduction hsymbol hnonterminal)

/-- The atoms before a form that is still to be derived begin a sentence, since every form of a
productive grammar derives some word. -/
theorem Productive.beginsSentence (h : grammar.Productive) {form : List Symbol}
    (hderives : grammar.Derives [grammar.start] (atoms.map Symbol.terminal ++ form)) :
    grammar.BeginsSentence atoms := by
  obtain ⟨word, hword, hform⟩ := h.exists_word fun symbol hsymbol =>
    hderives.terminal_or_mem_nonterminals symbol (List.mem_append_right _ hsymbol)
  obtain ⟨more, rfl⟩ := exists_atoms_of_isWord hword
  refine ⟨more, ?_⟩
  rw [IsSentence, List.map_append]
  exact hderives.trans (hform.append_left _)

/-- With `rest` left to read of some atoms, nothing was read in error. -/
structure ReadsCorrectly (grammar : Grammar) (atoms : List String) (rest : List Symbol) : Prop where
  /-- What was read begins a sentence. -/
  read : ∃ read unread, atoms = read ++ unread ∧ rest = unread.map Symbol.terminal ∧
    grammar.BeginsSentence read
  /-- An atom with which no sentence goes on is left, with all that stands behind it. -/
  error_unread : ∀ front atom back, atoms = front ++ atom :: back →
    ¬ grammar.BeginsSentence (front ++ [atom]) → (atom :: back).map Symbol.terminal <:+ rest

theorem readsCorrectly_of_beginsSentence {read unread : List String}
    (h : grammar.BeginsSentence read) :
    grammar.ReadsCorrectly (read ++ unread) (unread.map Symbol.terminal) where
  read := ⟨read, unread, rfl, rfl, h⟩
  error_unread front atom back hatoms herror := by
    rcases append_eq_append_cons_iff.mp hatoms with ⟨between, rfl, -⟩ | ⟨between, -, rfl⟩
    · -- the atom would have been read
      rw [← List.singleton_append, ← List.append_assoc] at h
      exact absurd h.of_append herror
    · rw [List.map_append]
      exact List.suffix_append ..

end Grammar

/-! ## The predictive driver -/

namespace Predictive.Parser

variable {grammar : Grammar} {first : FirstSets} {follow : FollowSets} {parser : Parser}
  {word : List Symbol}

/-- The start symbol derives what was read of a word followed by the stack. -/
structure Foretells (grammar : Grammar) (word : List Symbol) (config : Config) : Prop where
  proper : Proper config.stack
  derives : ∃ read, word = read ++ config.rest ∧
    grammar.Derives [grammar.start] (read ++ config.stack)

theorem Foretells.next (h : ofSets grammar first follow = .ok parser) (hword : IsWord word)
    {config following : Config} {move : Move} (hforetells : Foretells grammar word config)
    (hstep : parser.step config = .next move following) : Foretells grammar word following := by
  obtain ⟨stack, rest⟩ := config
  obtain ⟨hproper, read, rfl, hderives⟩ := hforetells
  have heffect := parser.step_effect hproper (isWord_append.mp hword).2
  rw [hstep] at heffect
  cases heffect with
  | matched symbol below rest =>
      refine ⟨hproper.tail, read ++ [symbol], by simp, ?_⟩
      rwa [List.append_assoc, List.singleton_append]
  | expanded symbol below rest production hkind hpredict =>
      obtain ⟨hproduction, rfl⟩ := mem_of_predict? h hpredict
      refine ⟨hproper.expand hproduction, read, rfl, ?_⟩
      have hbody := Grammar.derives_body hproduction read below
      rw [List.append_assoc] at hbody
      exact hderives.trans hbody

private theorem foretells_of_stateAfter (h : ofSets grammar first follow = .ok parser)
    (hword : IsWord word) {steps : Nat} {state : Guarded}
    (hrun : stateAfter parser.guardedStep steps ⟨parser.start word, []⟩ = some state) :
    Foretells grammar word state.config := by
  have hstart : Foretells grammar word (parser.start word) := by
    rw [start, (exists_table_of_ofSets h).1]
    exact ⟨proper_start grammar, [], rfl, Grammar.Derives.refl _⟩
  exact stateAfter_induct (stateAfter_of_guarded hrun) hstart fun _ _ _ hstep hforetells =>
    hforetells.next h hword hstep

end Predictive.Parser

/-! ## The shift-reduce driver -/

namespace ShiftReduce.Parser

variable {grammar : Grammar} {follow : FollowSets} {parser : Parser} {word : List Symbol}

/-- The symbols of a linked stack derive what was read of a word. -/
structure Recounts (grammar : Grammar) (word : List Symbol) (config : Config) : Prop where
  linked : Linked (Automaton.ofGrammar grammar) config.frames
  derives : ∃ read, word = read ++ config.rest ∧ grammar.Derives (spelled config.frames) read

theorem Recounts.next (h : ofFollow grammar follow = .ok parser) (hword : IsWord word)
    {config following : Config} {move : Move} (hrecounts : Recounts grammar word config)
    (hstep : parser.step config = .next move following) : Recounts grammar word following := by
  obtain ⟨frames, rest⟩ := config
  obtain ⟨hlinked, read, rfl, hderives⟩ := hrecounts
  have heffect := step_effect h hlinked (isWord_append.mp hword).2
  rw [hstep] at heffect
  cases heffect with
  | shifted frames symbol rest target _ htarget =>
      refine ⟨⟨htarget, hlinked⟩, read ++ [symbol], by simp, ?_⟩
      rw [spelled_cons]
      exact hderives.append_right [symbol]
  | reduced frames frames' rest production hreduces =>
      exact ⟨hreduces.linked hlinked, read, rfl, hreduces.derives.trans hderives⟩

private theorem recounts_of_stateAfter (h : ofFollow grammar follow = .ok parser) (hword : IsWord word)
    {steps : Nat} {config : Config}
    (hrun : stateAfter parser.step steps (start word) = some config) :
    Recounts grammar word config := by
  have hstart : Recounts grammar word (start word) :=
    ⟨linked_nil, [], rfl, Grammar.Derives.refl []⟩
  exact stateAfter_induct hrun hstart fun _ _ _ hstep hrecounts => hrecounts.next h hword hstep

end ShiftReduce.Parser

/-! ## Both drivers -/

/-- With any sets from which a table can be made for a productive grammar, the atoms that either
driver has read by any time of a run begin a sentence, and no erroneous atom is read. -/
theorem readsCorrectly_of_stateAfter {grammar : Grammar} (hproductive : grammar.Productive)
    (first : FirstSets) (follow : FollowSets) {atoms : List String} {word : List Symbol}
    (hatoms : Word.ofAtoms? atoms = some word) (steps : Nat) :
    (∀ parser, Predictive.Parser.ofSets grammar first follow = .ok parser → ∀ state,
      stateAfter parser.guardedStep steps ⟨parser.start word, []⟩ = some state →
        grammar.ReadsCorrectly atoms state.config.rest) ∧
    (∀ parser, ShiftReduce.Parser.ofFollow grammar follow = .ok parser → ∀ config,
      stateAfter parser.step steps (ShiftReduce.Parser.start word) = some config →
        grammar.ReadsCorrectly atoms config.rest) := by
  have hword := Word.isWord_of_ofAtoms? hatoms
  have hspelled := Word.eq_map_of_ofAtoms? hatoms
  constructor
  · intro parser h state hrun
    obtain ⟨_, front, hsplit, hderives⟩ :=
      Predictive.Parser.foretells_of_stateAfter h hword hrun
    obtain ⟨read, unread, rfl, rfl, hunread⟩ := List.map_eq_append_iff.mp (hspelled ▸ hsplit)
    rw [← hunread]
    exact Grammar.readsCorrectly_of_beginsSentence (hproductive.beginsSentence hderives)
  · intro parser h config hrun
    obtain ⟨hlinked, front, hsplit, hderives⟩ :=
      ShiftReduce.Parser.recounts_of_stateAfter h hword hrun
    obtain ⟨read, unread, rfl, rfl, hunread⟩ := List.map_eq_append_iff.mp (hspelled ▸ hsplit)
    rw [← hunread]
    obtain ⟨more, _, hsentence⟩ := hlinked.exists_sentence hproductive
    exact Grammar.readsCorrectly_of_beginsSentence
      (hproductive.beginsSentence (hsentence.trans (hderives.append_right more)))

/-- An `a` between any number of parentheses. -/
def wrapped : Grammar where
  start := .nonterminal "S"
  productions := [
    ⟨.nonterminal "S", [.terminal "(", .nonterminal "S", .terminal ")"]⟩,
    ⟨.nonterminal "S", [.terminal "a"]⟩]
  wellFormed := Grammar.wellFormed_of_fault?_eq_none (by decide)

private theorem wrapped_productive : wrapped.Productive :=
  Grammar.productive_of_rank (fun _ => 0) (by decide)

/-- An `a` that stands in no parentheses is a whole sentence. -/
private theorem not_beginsSentence_wrapped : ¬ wrapped.BeginsSentence ["a", ")"] := by
  rintro ⟨more, hsentence⟩
  have hshape : ∀ form, wrapped.Derives [.nonterminal "S"] form →
      form = [.nonterminal "S"] ∨ form = [.terminal "a"] ∨ form.head? = some (.terminal "(") := by
    intro form hform
    refine hform.preserves (motive := fun form => form = [.nonterminal "S"] ∨
      form = [.terminal "a"] ∨ form.head? = some (.terminal "(")) (.inl rfl) ?_
    rintro _ _ @⟨production, hproduction, before, after⟩ hbefore
    simp only [wrapped, List.mem_cons, List.not_mem_nil, or_false] at hproduction
    -- the `S` that is replaced is all there is, or it stands behind a parenthesis
    cases before with
    | nil => rcases hproduction with rfl | rfl <;> simp_all [Production.body, Production.isEpsilon]
    | cons head before => rcases hproduction with rfl | rfl <;> simp_all
  rcases hshape _ hsentence with h | h | h <;> simp at h

/-- On `a )` the shift-reduce parser for `wrapped` reads the `a` and reduces it before the `)`, which
it does not read; the predictive parser stops at the same place. -/
theorem readsCorrectly_of_stateAfter_wrapped :
    wrapped.Productive ∧ ¬ wrapped.BeginsSentence ["a", ")"] ∧
    (∃ parser, Predictive.Parser.ofSets wrapped (FirstSets.ofGrammar wrapped)
        (FollowSets.ofGrammar wrapped (FirstSets.ofGrammar wrapped)) = .ok parser ∧
      stateAfter parser.guardedStep 2 ⟨parser.start [.terminal "a", .terminal ")"], []⟩ =
        some ⟨⟨[], [.terminal ")"]⟩, []⟩ ∧
      wrapped.ReadsCorrectly ["a", ")"] [.terminal ")"]) ∧
    (∃ parser, ShiftReduce.Parser.ofFollow wrapped
        (FollowSets.ofGrammar wrapped (FirstSets.ofGrammar wrapped)) = .ok parser ∧
      stateAfter parser.step 2 (ShiftReduce.Parser.start [.terminal "a", .terminal ")"]) =
        some ⟨[⟨.nonterminal "S", 3⟩], [.terminal ")"]⟩ ∧
      wrapped.ReadsCorrectly ["a", ")"] [.terminal ")"]) := by
  have hatoms : Word.ofAtoms? ["a", ")"] = some [.terminal "a", .terminal ")"] := by decide
  have hpredictive : ((Predictive.Parser.ofSets wrapped (FirstSets.ofGrammar wrapped)
      (FollowSets.ofGrammar wrapped (FirstSets.ofGrammar wrapped))).toOption.map fun parser =>
        stateAfter parser.guardedStep 2 ⟨parser.start [.terminal "a", .terminal ")"], []⟩) =
      some (some ⟨⟨[], [.terminal ")"]⟩, []⟩) := by decide +kernel
  have hshiftReduce : ((ShiftReduce.Parser.ofFollow wrapped
      (FollowSets.ofGrammar wrapped (FirstSets.ofGrammar wrapped))).toOption.map fun parser =>
        stateAfter parser.step 2
          (ShiftReduce.Parser.start [.terminal "a", .terminal ")"])) =
      some (some ⟨[⟨.nonterminal "S", 3⟩], [.terminal ")"]⟩) := by decide +kernel
  obtain ⟨predictive, hmade, hrun⟩ := exists_ok_of_toOption_map hpredictive
  obtain ⟨shiftReduce, hmade', hrun'⟩ := exists_ok_of_toOption_map hshiftReduce
  refine ⟨wrapped_productive, not_beginsSentence_wrapped, ⟨predictive, hmade, hrun, ?_⟩,
    ⟨shiftReduce, hmade', hrun', ?_⟩⟩
  · exact (readsCorrectly_of_stateAfter wrapped_productive _ _ hatoms 2).1 predictive hmade _ hrun
  · exact (readsCorrectly_of_stateAfter wrapped_productive (FirstSets.ofGrammar wrapped) _ hatoms
      2).2 shiftReduce hmade' _ hrun'

end TableParsing
