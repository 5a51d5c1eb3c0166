import TableParsing.Proofs.ShiftReduce.Conflicts

/-!
# Where a table accepts

The start item stands in the first state and nowhere else: its symbol is in no body,
so that nothing predicts it, and no transition comes back to the first state.  The
completed start item therefore stands in one state as well, the one that the start
symbol of the grammar leads to from the first state, and a table accepts there,
before the end marker, and nowhere else.

Every item of that state has moved its dot over the start symbol alone or has not
moved it.  A production whose reduction is demanded there together with acceptance
is therefore empty or leads to the start symbol, whatever the FOLLOW sets are
(`Table.accept_once`).
-/

namespace TableParsing.ShiftReduce

variable {grammar : Grammar}

namespace Automaton

/-! ## The start item -/

theorem initial_startRule_not_mem {state target : Nat} {symbol : Symbol}
    (h : (ofGrammar grammar).transition? state symbol = some target) :
    .initial grammar.startRule ∉ (ofGrammar grammar).itemsAt target := by
  intro hitem
  rcases mem_itemsAt_cases h hitem with ⟨moved, _, _, hmoved⟩ | ⟨_, _, next, hnext, rule, hrule, hsame⟩
  · cases congrArg Item.dot hmoved
  · cases hsame
    obtain ⟨production, hproduction, _⟩ := exists_production_of_predicted hnext hrule
    exact Grammar.ne_startRule_of_production? hproduction rfl

theorem transition?_ne_zero (state : Nat) (symbol : Symbol) :
    (ofGrammar grammar).transition? state symbol ≠ some 0 :=
  fun h => initial_startRule_not_mem h (initial_startRule_mem_itemsAt grammar)

theorem eq_zero_or_exists_transition? {state : Nat} {item : Item}
    (h : item ∈ (ofGrammar grammar).itemsAt state) :
    state = 0 ∨ ∃ source symbol, (ofGrammar grammar).transition? source symbol = some state := by
  have hlt := (List.getElem?_eq_some_iff.mp (getElem?_states_of_mem_itemsAt h)).1
  obtain ⟨path, hpath⟩ := exists_path hlt
  rcases List.eq_nil_or_concat path with rfl | ⟨front, symbol, rfl⟩
  · exact .inl (Option.some.inj hpath).symm
  · rw [List.concat_eq_append] at hpath
    obtain ⟨source, _, htransition⟩ := follow?_concat_eq_some_iff.mp hpath
    exact .inr ⟨source, symbol, htransition⟩

theorem initial_startRule_mem_itemsAt_iff {state : Nat} :
    .initial grammar.startRule ∈ (ofGrammar grammar).itemsAt state ↔ state = 0 := by
  constructor
  · intro hitem
    rcases eq_zero_or_exists_transition? hitem with hzero | ⟨source, symbol, htransition⟩
    · exact hzero
    · exact absurd hitem (initial_startRule_not_mem htransition)
  · rintro rfl
    exact initial_startRule_mem_itemsAt grammar

/-! ## The completed start item -/

/-- An item with a moved dot comes from a state in which the dot had not moved. -/
private theorem exists_of_advanced_mem_itemsAt {state : Nat} {item : Item}
    (h : item.advanced ∈ (ofGrammar grammar).itemsAt state) :
    ∃ source symbol, (ofGrammar grammar).transition? source symbol = some state ∧
      item ∈ (ofGrammar grammar).itemsAt source ∧ item.next? grammar.augmented = some symbol := by
  rcases eq_zero_or_exists_transition? h with rfl | ⟨source, symbol, htransition⟩
  · cases eq_initial_of_mem_itemsAt_zero h
  · rcases mem_itemsAt_cases htransition h with
      ⟨moved, hmoved, hnext, hsame⟩ | ⟨_, _, _, _, _, _, hsame⟩
    · cases moved
      cases item
      cases hsame
      exact ⟨source, symbol, htransition, hmoved, hnext⟩
    · cases hsame

/-- Behind the dot of the start item stands the start symbol, and nothing else. -/
theorem behind_initial_startRule (grammar : Grammar) :
    (Item.initial grammar.startRule).behind grammar.augmented = [grammar.start] := by
  rw [Item.behind_initial, Grammar.augmented_body_startRule]

private theorem next?_initial_startRule (grammar : Grammar) :
    (Item.initial grammar.startRule).next? grammar.augmented = some grammar.start :=
  Item.next?_of_behind (behind_initial_startRule grammar)

private theorem next?_advanced_startRule (grammar : Grammar) :
    (Item.initial grammar.startRule).advanced.next? grammar.augmented = none := by
  rw [Item.next?_eq_head?, Item.behind_advanced (behind_initial_startRule grammar), List.head?_nil]

/-- A completed item of the added rule has its dot behind the start symbol. -/
theorem eq_advanced_of_complete {state : Nat} {item : Item}
    (h : item ∈ (ofGrammar grammar).itemsAt state) (hrule : item.rule = grammar.startRule)
    (hnext : item.next? grammar.augmented = none) :
    item = (Item.initial grammar.startRule).advanced := by
  obtain ⟨rule, dot⟩ := item
  obtain rfl : rule = grammar.startRule := hrule
  have hbody : (grammar.augmented.body grammar.startRule).length = 1 := by
    rw [Grammar.augmented_body_startRule, List.length_singleton]
  have hle : dot ≤ (grammar.augmented.body grammar.startRule).length :=
    (states_within grammar _ (mem_states_of_mem_itemsAt h) _ h).2
  have hge : (grammar.augmented.body grammar.startRule).length ≤ dot :=
    List.getElem?_eq_none_iff.mp hnext
  obtain rfl : dot = 1 := by omega
  rfl

/-- The start symbol leads on from the first state, to a state with the completed start item. -/
theorem exists_accepting (grammar : Grammar) :
    ∃ accepting, (ofGrammar grammar).transition? 0 grammar.start = some accepting ∧
      (Item.initial grammar.startRule).advanced ∈ (ofGrammar grammar).itemsAt accepting :=
  exists_transition? (initial_startRule_mem_itemsAt grammar) (next?_initial_startRule grammar)

section Accepting

variable {accepting : Nat}
  (haccepting : (ofGrammar grammar).transition? 0 grammar.start = some accepting)
include haccepting

theorem eq_accepting_of_mem_itemsAt {state : Nat}
    (h : (Item.initial grammar.startRule).advanced ∈ (ofGrammar grammar).itemsAt state) :
    state = accepting := by
  obtain ⟨source, symbol, htransition, hitem, hnext⟩ := exists_of_advanced_mem_itemsAt h
  obtain rfl := initial_startRule_mem_itemsAt_iff.mp hitem
  rw [next?_initial_startRule] at hnext
  cases hnext
  exact Option.some.inj (htransition.symm.trans haccepting)

/-- Before the dots of that state stands nothing, or the start symbol. -/
theorem before_of_mem_itemsAt {item : Item} (h : item ∈ (ofGrammar grammar).itemsAt accepting) :
    item.before grammar.augmented = [] ∨ item.before grammar.augmented = [grammar.start] := by
  rcases mem_itemsAt_cases haccepting h with ⟨moved, hmoved, hnext, rfl⟩ | ⟨_, _, _, _, _, _, rfl⟩
  · have hinitial : moved.before grammar.augmented = [] := by
      rw [eq_initial_of_mem_itemsAt_zero hmoved]
      rfl
    rw [Item.before_advanced hnext, hinitial]
    exact .inr rfl
  · exact .inl rfl

end Accepting

end Automaton

namespace Table

variable {follow : FollowSets} {state accepting : Nat}

theorem demand_accept_iff
    (haccepting : (Automaton.ofGrammar grammar).transition? 0 grammar.start = some accepting)
    {lookahead : Symbol} :
    Demand (.ofGrammar grammar) follow state lookahead .accept ↔
      state = accepting ∧ lookahead = .endMarker := by
  constructor
  · intro h
    cases h with
    | accept hitem hnext hrule =>
        have hsame := Automaton.eq_advanced_of_complete hitem hrule hnext
        exact ⟨Automaton.eq_accepting_of_mem_itemsAt haccepting (hsame ▸ hitem), rfl⟩
  · rintro ⟨rfl, rfl⟩
    obtain ⟨other, hother, hitem⟩ := Automaton.exists_accepting grammar
    cases haccepting.symm.trans hother
    exact .accept hitem (Automaton.next?_advanced_startRule grammar) rfl

/-- What is reduced in the accepting state is empty or leads to the start symbol. -/
theorem body_of_demand_reduce
    (haccepting : (Automaton.ofGrammar grammar).transition? 0 grammar.start = some accepting)
    {lookahead : Symbol} {rule : Nat}
    (h : Demand (.ofGrammar grammar) follow accepting lookahead (.reduce rule)) :
    ∃ production, grammar.production? rule = some production ∧
      (production.body = [] ∨ production.body = [grammar.start]) := by
  cases h with
  | @reduce item production _ hitem hnext hrule hproduction _ =>
      have hown := Grammar.production?_of_augmented hproduction hrule
      refine ⟨production, hown, ?_⟩
      have hbefore := Automaton.before_of_mem_itemsAt haccepting hitem
      have hwhole : item.before grammar.augmented = grammar.augmented.body item.rule :=
        Item.before_of_next?_eq_none hnext
      rwa [hwhole, Grammar.augmented_body_of_production? hown] at hbefore

/-- A conflict of acceptance with a reduction reports two demands of one state. -/
theorem exists_demands_of_acceptReduce {production : Production}
    (h : ofFollow (.ofGrammar grammar) follow = .error (.acceptReduce state production)) :
    ∃ rule, grammar.augmented.production? rule = some production ∧
      Demand (.ofGrammar grammar) follow state .endMarker .accept ∧
      Demand (.ofGrammar grammar) follow state .endMarker (.reduce rule) := by
  obtain ⟨⟨number, item, lookahead⟩, earlier, later, hdisagree, hreports⟩ :=
    exists_firstDisagreement h
  obtain ⟨other, _, hearlier⟩ := hdisagree.earlier_demand
  have hfirst := hearlier.demand
  have hsecond := hdisagree.later_demand.demand
  cases hreports with
  | acceptReduce hproduction => exact ⟨_, hproduction, hfirst, hsecond⟩
  | reduceAccept hproduction => exact ⟨_, hproduction, hsecond, hfirst⟩

/-- The start item stands in the first state only, to which no transition leads.  The completed start
item stands in one state only, to which the start symbol leads from the first one.  For any FOLLOW
sets, a table accepts in that state before the end marker and nowhere else; a conflict of acceptance
with a reduction is one of that state, and what is reduced is a production of the grammar that is
empty or leads to the start symbol alone. -/
theorem accept_once (grammar : Grammar) (follow : FollowSets) :
    (∀ state, .initial grammar.startRule ∈ (Automaton.ofGrammar grammar).itemsAt state ↔
      state = 0) ∧
    (∀ state symbol, (Automaton.ofGrammar grammar).transition? state symbol ≠ some 0) ∧
    ∃ accepting, (Automaton.ofGrammar grammar).transition? 0 grammar.start = some accepting ∧
      (∀ state, (∃ item ∈ (Automaton.ofGrammar grammar).itemsAt state,
        item.rule = grammar.startRule ∧ item.isComplete grammar.augmented = true) ↔
          state = accepting) ∧
      match ofFollow (.ofGrammar grammar) follow with
      | .ok table => ∀ state lookahead, table.action? state lookahead = some .accept ↔
          state = accepting ∧ lookahead = .endMarker
      | .error (.acceptReduce state production) =>
          state = accepting ∧ production ∈ grammar.productions ∧
            (production.body = [] ∨ production.body = [grammar.start])
      | .error _ => True := by
  obtain ⟨accepting, haccepting, hcomplete⟩ := Automaton.exists_accepting grammar
  refine ⟨fun state => Automaton.initial_startRule_mem_itemsAt_iff, Automaton.transition?_ne_zero,
    accepting, haccepting, fun state => ⟨?_, ?_⟩, ?_⟩
  · rintro ⟨item, hitem, hrule, hend⟩
    have hsame := Automaton.eq_advanced_of_complete hitem hrule (Item.next?_of_isComplete hend)
    exact Automaton.eq_accepting_of_mem_itemsAt haccepting (hsame ▸ hitem)
  · rintro rfl
    refine ⟨_, hcomplete, rfl, ?_⟩
    show (1 == (grammar.augmented.body grammar.startRule).length) = true
    rw [Grammar.augmented_body_startRule]
    rfl
  · split
    · rename_i table h
      intro state lookahead
      have hparser : Parser.ofFollow grammar follow = .ok ⟨.ofGrammar grammar, table⟩ := by
        rw [Parser.ofFollow, h]
        rfl
      exact (Parser.action?_eq_some_iff hparser).trans (demand_accept_iff haccepting)
    · rename_i state production h
      obtain ⟨rule, hproduction, haccept, hreduce⟩ := exists_demands_of_acceptReduce h
      obtain ⟨rfl, _⟩ := (demand_accept_iff haccepting).mp haccept
      obtain ⟨own, hown, hbody⟩ := body_of_demand_reduce haccepting hreduce
      cases hproduction.symm.trans (Grammar.augmented_production?_of_production? hown)
      exact ⟨rfl, Grammar.mem_of_production? hown, hbody⟩
    · trivial

/-- Chains of `a` whose symbol also leads to itself. -/
def selfReferring : Grammar where
  start := .nonterminal "S"
  productions := [
    ⟨.nonterminal "S", [.nonterminal "S"]⟩,
    ⟨.nonterminal "S", [.terminal "a", .nonterminal "S"]⟩,
    ⟨.nonterminal "S", [.epsilon]⟩]
  wellFormed := Grammar.wellFormed_of_fault?_eq_none (by decide)

/-- What was recognised as the start symbol could be accepted, or be renamed once more. -/
example : ofFollow (.ofGrammar selfReferring)
    (FollowSets.ofGrammar selfReferring (FirstSets.ofGrammar selfReferring)) =
      .error (.acceptReduce 2 ⟨.nonterminal "S", [.nonterminal "S"]⟩) := by decide +kernel

end Table

end TableParsing.ShiftReduce
