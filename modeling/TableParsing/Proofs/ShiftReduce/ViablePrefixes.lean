import Mathlib.Data.List.Induction
import TableParsing.Proofs.Augmentation
import TableParsing.Proofs.Lists
import TableParsing.Proofs.Rightmost
import TableParsing.Proofs.ShiftReduce.Collection

/-!
# The automaton recognizes the viable prefixes

A viable prefix is a prefix of a right sentential form that does not extend past
its handle, the body that the last step put there; an item is valid for it if its
dot can stand at its end in the handle.  In a productive grammar the automaton
leads from its first state along a string if and only if the string is a viable
prefix, and the items of the state reached are those that are valid for it
(`recognizes_viablePrefixes`).

* Nothing else is reached (`validFor_of_follow?`): moving the dot keeps an item
  valid, and prediction passes validity on, since in a productive grammar what
  stands behind the predicted symbol can first be derived to a word.
* Everything is reached (`mem_itemsAt_of_validFor`): wherever a nonterminal stands
  in a right sentential form, the path along the symbols in front of it leads to a
  state with the initial items of its rules (`exists_follow?_of_derivesRight`).
  The path is followed from step to step of the derivation, so this half holds of
  all grammars.
-/

namespace TableParsing

/-- A prefix of a right sentential form that does not extend past its handle. -/
def Grammar.ViablePrefix (grammar : Grammar) (read : List Symbol) : Prop :=
  ∃ production ∈ grammar.productions, ∃ front word, IsWord word ∧
    grammar.DerivesRight [grammar.start] (front ++ production.lhs :: word) ∧
    read <+: front ++ production.body

namespace ShiftReduce

variable {grammar : Grammar}

/-! ## Valid items -/

namespace Item

/-- An item is valid for a string if a rightmost derivation comes to apply its rule, and what
stands before the rule and before the dot is the string. -/
inductive ValidFor (grammar : Grammar) (item : Item) : List Symbol → Prop
  | intro {production : Production} (front : List Symbol) {word : List Symbol}
      (hproduction : grammar.production? item.rule = some production)
      (hdot : item.dot ≤ production.body.length) (hword : IsWord word)
      (hderives : grammar.DerivesRight [grammar.start] (front ++ production.lhs :: word)) :
      ValidFor grammar item (front ++ item.before grammar)

theorem exists_word_of_behind (hproductive : grammar.Productive) (item : Item) :
    ∃ word, IsWord word ∧ grammar.Derives (item.behind grammar) word := by
  refine hproductive.exists_word fun symbol hsymbol => ?_
  have hbody := mem_body_of_mem_behind hsymbol
  cases hproduction : grammar.production? item.rule with
  | none =>
      rw [Grammar.body, hproduction] at hbody
      cases hbody
  | some production =>
      rw [Grammar.body_of_production? hproduction] at hbody
      have hmem := Grammar.mem_of_production? hproduction
      exact (Grammar.terminal_or_nonterminal_of_mem_body hmem hbody).imp_right
        (Grammar.mem_nonterminals_of_mem_body hmem hbody)

namespace ValidFor

variable {item : Item} {read : List Symbol}

/-- The derivation goes on with the symbols behind the dot. -/
theorem exists_derivesRight (h : item.ValidFor grammar read) :
    ∃ word, IsWord word ∧
      grammar.DerivesRight [grammar.start] (read ++ item.behind grammar ++ word) := by
  obtain @⟨production, front, word, hproduction, _, hword, hderives⟩ := h
  refine ⟨word, hword, hderives.trans ?_⟩
  rw [List.append_assoc front, before_append_behind, Grammar.body_of_production? hproduction]
  exact Grammar.derivesRight_body (Grammar.mem_of_production? hproduction) front hword

/-- Moving the dot over a symbol keeps an item valid behind the symbol. -/
theorem advanced (h : item.ValidFor grammar read) {symbol : Symbol}
    (hnext : item.next? grammar = some symbol) :
    item.advanced.ValidFor grammar (read ++ [symbol]) := by
  obtain @⟨production, front, word, hproduction, hdot, hword, hderives⟩ := h
  rw [List.append_assoc, ← before_advanced hnext]
  have hlt : item.dot < (grammar.body item.rule).length := (List.getElem?_eq_some_iff.mp hnext).1
  rw [Grammar.body_of_production? hproduction] at hlt
  exact .intro front hproduction hlt hword hderives

/-- In a productive grammar a valid item makes those valid that it predicts. -/
theorem predicted (hproductive : grammar.Productive) (h : item.ValidFor grammar read)
    {symbol : Symbol} (hnext : item.next? grammar = some symbol) {rule : Nat}
    (hrule : rule ∈ grammar.rulesFor symbol) : (initial rule).ValidFor grammar read := by
  obtain ⟨production, hproduction, rfl⟩ := Grammar.mem_rulesFor.mp hrule
  obtain ⟨word, hword, hderives⟩ := h.exists_derivesRight
  -- what stands behind the symbol is derived to a word before the symbol is replaced
  obtain ⟨middle, hmiddle, hbehind⟩ := item.advanced.exists_word_of_behind hproductive
  have hlater := (hbehind.derivesRight hmiddle).inContext (read ++ [production.lhs]) hword
  have hreplaced : grammar.DerivesRight [grammar.start]
      (read ++ production.lhs :: (middle ++ word)) := by
    rw [behind_of_next? hnext] at hderives
    simp only [List.append_assoc, List.cons_append, List.nil_append] at hderives hlater
    exact hderives.trans hlater
  have hvalid : (initial rule).ValidFor grammar (read ++ (initial rule).before grammar) :=
    .intro read hproduction (Nat.zero_le _) (isWord_append.mpr ⟨hmiddle, hword⟩) hreplaced
  rwa [show (initial rule).before grammar = [] from rfl, List.append_nil] at hvalid

end ValidFor

theorem validFor_initial_startRule (grammar : Grammar) :
    (initial grammar.startRule).ValidFor grammar.augmented [] :=
  .intro [] grammar.augmented_production?_startRule (Nat.zero_le _) isWord_nil
    (Grammar.DerivesRight.refl [grammar.augmentedStart])

end Item

namespace Automaton

/-! ## Nothing else is reached -/

/-- In a productive grammar the items of the state that a string leads to are valid for it. -/
theorem validFor_of_follow? (hproductive : grammar.Productive) {read : List Symbol} {state : Nat}
    (h : (ofGrammar grammar).follow? 0 read = some state) :
    ∀ item ∈ (ofGrammar grammar).itemsAt state, item.ValidFor grammar.augmented read := by
  induction read using List.reverseRecOn generalizing state with
  | nil =>
      cases h
      rw [itemsAt_zero]
      apply ItemSet.closure_induct
      · intro item hitem
        rw [List.mem_singleton.mp hitem]
        exact Item.validFor_initial_startRule grammar
      · exact fun item symbol rule hvalid hnext hrule =>
          hvalid.predicted hproductive.augmented hnext hrule
  | append_singleton read symbol ih =>
      obtain ⟨middle, hmiddle, htransition⟩ := follow?_concat_eq_some_iff.mp h
      rw [itemsAt_of_transition? htransition]
      apply ItemSet.closure_induct
      · intro item hitem
        obtain ⟨moved, hmoved, hnext, rfl⟩ := ItemSet.mem_kernel.mp hitem
        exact (ih hmiddle moved hmoved).advanced hnext
      · exact fun item symbol rule hvalid hnext hrule =>
          hvalid.predicted hproductive.augmented hnext hrule

/-! ## Everything is reached -/

private theorem behind_of_moved {item : Item} {first second : List Symbol}
    (h : item.behind grammar = first ++ second) :
    (⟨item.rule, item.dot + first.length⟩ : Item).behind grammar = second := by
  show (grammar.body item.rule).drop (item.dot + first.length) = second
  rw [← List.drop_drop, show (grammar.body item.rule).drop item.dot = first ++ second from h,
    List.drop_left]

/-- From a state with an item a path leads along the symbols behind the dot, which moves on. -/
private theorem exists_follow?_of_behind {state : Nat} {item : Item}
    (hitem : item ∈ (ofGrammar grammar).itemsAt state) {first second : List Symbol}
    (hbehind : item.behind grammar.augmented = first ++ second) :
    ∃ target, (ofGrammar grammar).follow? state first = some target ∧
      (⟨item.rule, item.dot + first.length⟩ : Item) ∈ (ofGrammar grammar).itemsAt target := by
  induction first generalizing state item with
  | nil => exact ⟨state, rfl, hitem⟩
  | cons symbol first ih =>
      obtain ⟨middle, hmiddle, hadvanced⟩ :=
        exists_transition? hitem (Item.next?_of_behind hbehind)
      obtain ⟨target, htarget, hmoved⟩ := ih hadvanced (Item.behind_advanced hbehind)
      refine ⟨target, by rw [follow?_cons, hmiddle, Option.bind_some, htarget], ?_⟩
      rw [List.length_cons, Nat.add_comm first.length, ← Nat.add_assoc]
      exact hmoved

/-- Wherever a nonterminal stands in a right sentential form, the symbols in front of it lead to a
state with the initial items of its rules. -/
theorem exists_follow?_of_derivesRight {form : List Symbol}
    (h : grammar.augmented.DerivesRight [grammar.augmentedStart] form) {front rest : List Symbol}
    {symbol : Symbol} (hform : form = front ++ symbol :: rest) {rule : Nat}
    (hrule : rule ∈ grammar.augmented.rulesFor symbol) :
    ∃ state, (ofGrammar grammar).follow? 0 front = some state ∧
      .initial rule ∈ (ofGrammar grammar).itemsAt state := by
  induction h generalizing front rest symbol rule with
  | refl =>
      cases front with
      | nil =>
          cases hform
          rw [Grammar.eq_startRule_of_mem_rulesFor hrule]
          exact ⟨0, rfl, initial_startRule_mem_itemsAt grammar⟩
      | cons first front => simp at hform
  | tail _ hstep ih =>
      obtain @⟨production, hproduction, before, word, hword⟩ := hstep
      rcases append_eq_append_cons_iff.mp hform with ⟨between, hleft, _⟩ | ⟨between, _, hright⟩
      · rcases append_eq_append_cons_iff.mp hleft with ⟨between, rfl, _⟩ | ⟨inside, rfl, hbody⟩
        · -- the symbol stood in front of the replaced one before
          exact ih (by rw [List.append_assoc, List.cons_append]) hrule
        · -- it came with the body, behind which an initial item of its rule waits
          obtain ⟨applied, happlied⟩ := Grammar.exists_production?_of_mem hproduction
          obtain ⟨state, hstate, hinitial⟩ :=
            ih rfl (Grammar.mem_rulesFor.mpr ⟨production, happlied, rfl⟩)
          have hbehind : (Item.initial applied).behind grammar.augmented =
              inside ++ symbol :: between := by
            rw [Item.behind_initial, Grammar.body_of_production? happlied, hbody]
          obtain ⟨target, htarget, hmoved⟩ := exists_follow?_of_behind hinitial hbehind
          refine ⟨target, by rw [follow?_append, hstate, Option.bind_some, htarget], ?_⟩
          exact closed_itemsAt target _ hmoved symbol
            (Item.next?_of_behind (behind_of_moved hbehind)) rule hrule
      · -- behind the body stands a word, with no nonterminal in it
        have hterminal := hword symbol (hright ▸ List.mem_append_right _ List.mem_cons_self)
        obtain ⟨defining, hdefining, rfl⟩ := Grammar.mem_rulesFor.mp hrule
        have hnonterminal := Grammar.lhs_isNonterminal (Grammar.mem_of_production? hdefining)
        exact absurd hterminal (Symbol.not_isTerminal_of_isNonterminal hnonterminal)

theorem mem_itemsAt_of_validFor {item : Item} {read : List Symbol}
    (h : item.ValidFor grammar.augmented read) :
    ∃ state, (ofGrammar grammar).follow? 0 read = some state ∧
      item ∈ (ofGrammar grammar).itemsAt state := by
  obtain @⟨production, front, word, hproduction, hdot, hword, hderives⟩ := h
  obtain ⟨state, hstate, hinitial⟩ := exists_follow?_of_derivesRight hderives rfl
    (Grammar.mem_rulesFor.mpr ⟨production, hproduction, rfl⟩)
  have hbehind : (Item.initial item.rule).behind grammar.augmented =
      item.before grammar.augmented ++ item.behind grammar.augmented := by
    rw [Item.behind_initial, Item.before_append_behind]
  obtain ⟨target, htarget, hmoved⟩ := exists_follow?_of_behind hinitial hbehind
  have hlength : (item.before grammar.augmented).length = item.dot := by
    rw [Item.before, Grammar.body_of_production? hproduction, List.length_take_of_le hdot]
  refine ⟨target, by rw [follow?_append, hstate, Option.bind_some, htarget], ?_⟩
  simpa [hlength, Item.initial] using hmoved

/-! ## Viable prefixes -/

/-- In a productive grammar the automaton leads along the viable prefixes and along no other
strings, and the items of the state that it comes to are those that are valid for the string. -/
theorem recognizes_viablePrefixes (hproductive : grammar.Productive) (read : List Symbol) :
    ((∃ state, (ofGrammar grammar).follow? 0 read = some state) ↔
        grammar.augmented.ViablePrefix read) ∧
      ∀ state, (ofGrammar grammar).follow? 0 read = some state →
        ∀ item, item ∈ (ofGrammar grammar).itemsAt state ↔
          item.ValidFor grammar.augmented read := by
  refine ⟨⟨?_, ?_⟩, fun state hstate item => ⟨?_, ?_⟩⟩
  · rintro ⟨state, hstate⟩
    -- the state has some item, and the handle of its derivation begins in front of the dot
    obtain ⟨item, hitem⟩ := exists_mem_itemsAt_of_follow? hstate
    obtain @⟨production, front, word, hproduction, _, hword, hderives⟩ :=
      validFor_of_follow? hproductive hstate item hitem
    refine ⟨production, Grammar.mem_of_production? hproduction, front, word, hword, hderives, ?_⟩
    rw [List.prefix_append_right_inj, ← Grammar.body_of_production? hproduction]
    exact List.take_prefix ..
  · rintro ⟨production, hmem, front, word, hword, hderives, more, hmore⟩
    -- the completed item of the handle is reached, and the string is passed on the way to it
    obtain ⟨rule, hproduction⟩ := Grammar.exists_production?_of_mem hmem
    have hvalid : (⟨rule, production.body.length⟩ : Item).ValidFor grammar.augmented _ :=
      .intro front hproduction (Nat.le_refl _) hword hderives
    rw [Item.before, Grammar.body_of_production? hproduction, List.take_length, ← hmore] at hvalid
    obtain ⟨state, hstate, _⟩ := mem_itemsAt_of_validFor hvalid
    rw [follow?_append] at hstate
    obtain ⟨middle, hmiddle, _⟩ := Option.bind_eq_some_iff.mp hstate
    exact ⟨middle, hmiddle⟩
  · exact validFor_of_follow? hproductive hstate item
  · intro hvalid
    obtain ⟨reached, hreached, hitem⟩ := mem_itemsAt_of_validFor hvalid
    cases hstate.symm.trans hreached
    exact hitem

/-- Balanced parentheses from left to right.  Every `S` begins with another one, which can vanish. -/
def balanced : Grammar where
  start := .nonterminal "S"
  productions := [
    ⟨.nonterminal "S", [.nonterminal "S", .terminal "(", .nonterminal "S", .terminal ")"]⟩,
    ⟨.nonterminal "S", [.epsilon]⟩]
  wellFormed := Grammar.wellFormed_of_fault?_eq_none (by decide)

theorem balanced_productive : balanced.Productive :=
  Grammar.productive_of_rank (fun _ => 0) (by decide)

/-- In `balanced`, `S ( S` is a viable prefix and `(` is none.  The empty body may come behind `S (`
but not behind `S ( S`, where the second `S` is the inner one of a body or the first one. -/
theorem recognizes_viablePrefixes_balanced :
    balanced.Productive ∧
      balanced.augmented.ViablePrefix [.nonterminal "S", .terminal "(", .nonterminal "S"] ∧
      ¬ balanced.augmented.ViablePrefix [.terminal "("] ∧
      (⟨1, 0⟩ : Item).ValidFor balanced.augmented [.nonterminal "S", .terminal "("] ∧
      (⟨0, 3⟩ : Item).ValidFor balanced.augmented
        [.nonterminal "S", .terminal "(", .nonterminal "S"] ∧
      (⟨0, 1⟩ : Item).ValidFor balanced.augmented
        [.nonterminal "S", .terminal "(", .nonterminal "S"] ∧
      ¬ (⟨1, 0⟩ : Item).ValidFor balanced.augmented
        [.nonterminal "S", .terminal "(", .nonterminal "S"] := by
  have hopen : (ofGrammar balanced).follow? 0 [.nonterminal "S", .terminal "("] = some 2 := by
    decide +kernel
  have hinside : (ofGrammar balanced).follow? 0
      [.nonterminal "S", .terminal "(", .nonterminal "S"] = some 3 := by
    decide +kernel
  have hbare : (ofGrammar balanced).follow? 0 [.terminal "("] = none := by
    decide +kernel
  refine ⟨balanced_productive, ?_, fun hviable => ?_, ?_, ?_, ?_, fun hvalid => ?_⟩
  · exact (recognizes_viablePrefixes balanced_productive _).1.mp ⟨3, hinside⟩
  · obtain ⟨state, hstate⟩ := (recognizes_viablePrefixes balanced_productive _).1.mpr hviable
    rw [hbare] at hstate
    cases hstate
  · exact ((recognizes_viablePrefixes balanced_productive _).2 2 hopen _).mp (by decide +kernel)
  · exact ((recognizes_viablePrefixes balanced_productive _).2 3 hinside _).mp (by decide +kernel)
  · exact ((recognizes_viablePrefixes balanced_productive _).2 3 hinside _).mp (by decide +kernel)
  · have hmem := ((recognizes_viablePrefixes balanced_productive _).2 3 hinside _).mpr hvalid
    exact absurd hmem (by decide +kernel)

end Automaton

end ShiftReduce

end TableParsing
