import TableParsing.Analysis
import TableParsing.Proofs.Augmentation
import TableParsing.Proofs.Predictive.Table
import TableParsing.Proofs.Sets.Adjacency
import TableParsing.Proofs.ShiftReduce.Actions

/-!
# Where parse tables have entries

The lookaheads of a table are members of FIRST and FOLLOW sets, and its gotos are
transitions of an automaton.  This file shows that none of them leaves the grammar:
whatever its sets and its states hold, a table has entries only under terminals of
the grammar and the end marker, for nonterminals of the grammar and for states of
the automaton.

The members of the sets are known by derivations.  A terminal that begins or
follows something stands in what a nonterminal derives, and is thus a terminal of
some body.  The symbols of transitions stand in bodies of the augmented grammar,
where its own start symbol does not occur.
-/

namespace TableParsing

variable {grammar : Grammar}

/-! ## Members of the sets -/

/-- What begins the right-hand side of a production is a terminal of the grammar. -/
theorem FirstSets.mem_terminals_of_mem_ofString_rhs {production : Production}
    (hproduction : production ∈ grammar.productions) {member : Symbol}
    (hmember : member ∈ (ofGrammar grammar).ofString production.rhs) (hne : member ≠ .epsilon) :
    member ∈ grammar.terminals := by
  have hbegins : grammar.Begins [production.lhs] member :=
    begins_of_mem_source hproduction (sound_ofGrammar grammar) hmember
  have hlhs : production.lhs ∈ grammar.nonterminals :=
    Grammar.mem_nonterminals.mpr ⟨production, hproduction, rfl⟩
  cases hbegins with
  | terminal hderives =>
      exact hderives.mem_terminals_of_mem_nonterminals hlhs _ List.mem_cons_self rfl
  | epsilon => exact absurd rfl hne

/-- What adjoins a symbol is a terminal of the grammar or the end marker. -/
theorem Grammar.Adjoins.mem_terminals_or_eq_endMarker {symbol member : Symbol}
    (h : grammar.Adjoins symbol member) : member ∈ grammar.terminals ∨ member = .endMarker := by
  cases h with
  | terminal horigin hderives =>
      exact .inl (hderives.mem_terminals_of_mem_nonterminals horigin _ (by simp) rfl)
  | endMarker => exact .inr rfl

theorem FollowSets.mem_terminals_or_eq_endMarker {symbol member : Symbol}
    (hmember : member ∈ (ofGrammar grammar (FirstSets.ofGrammar grammar)).setOf symbol) :
    member ∈ grammar.terminals ∨ member = .endMarker :=
  (sound_ofGrammar grammar symbol member hmember).mem_terminals_or_eq_endMarker

theorem Grammar.mem_terminals_of_mem_body {rule : Nat} {symbol : Symbol}
    (h : symbol ∈ grammar.body rule) (hterminal : symbol.isTerminal = true) :
    symbol ∈ grammar.terminals := by
  cases hproduction : grammar.production? rule with
  | none =>
      rw [body, hproduction] at h
      cases h
  | some production =>
      rw [body_of_production? hproduction] at h
      exact mem_terminals.mpr
        ⟨hterminal, production, mem_of_production? hproduction, mem_rhs_of_mem_body h⟩

/-! ## Predictions -/

namespace Predictive.Parser

/-- Predictions are for nonterminals before terminals of the grammar or the end marker. -/
theorem range_of_rule? {parser : Parser} (h : (Analysis.ofGrammar grammar).ll1 = .ok parser)
    {nonterminal lookahead : Symbol} {rule : Nat}
    (hrule : parser.table.rule? nonterminal lookahead = some rule) :
    nonterminal ∈ grammar.nonterminals ∧
      (lookahead ∈ grammar.terminals ∨ lookahead = .endMarker) := by
  obtain ⟨production, hproduction, rfl, hlookahead⟩ := (rule?_eq_some_iff h).mp hrule
  have hmem := Grammar.mem_of_production? hproduction
  refine ⟨Grammar.mem_nonterminals.mpr ⟨production, hmem, rfl⟩, ?_⟩
  rcases Table.mem_lookaheads.mp hlookahead with ⟨hfirst, hne⟩ | ⟨_, hfollow⟩
  · exact .inl (FirstSets.mem_terminals_of_mem_ofString_rhs hmem hfirst hne)
  · exact FollowSets.mem_terminals_or_eq_endMarker hfollow

end Predictive.Parser

/-! ## Actions and gotos -/

namespace ShiftReduce.Parser

variable {parser : Parser} {state : Nat}

theorem lt_length_states_of_mem_itemsAt {automaton : Automaton} {item : Item}
    (h : item ∈ automaton.itemsAt state) : state < automaton.states.length :=
  (List.getElem?_eq_some_iff.mp (Automaton.getElem?_states_of_mem_itemsAt h)).1

/-- Actions are in states of the automaton before terminals of the grammar or the end marker. -/
theorem range_of_action? (h : (Analysis.ofGrammar grammar).slr1 = .ok parser) {lookahead : Symbol}
    {action : Action} (haction : parser.table.action? state lookahead = some action) :
    state < parser.automaton.states.length ∧
      (lookahead ∈ grammar.terminals ∨ lookahead = .endMarker) := by
  rw [automaton_eq h]
  have hdemand := (action?_eq_some_iff h).mp haction
  obtain ⟨item, hitem, hown⟩ := hdemand.exists_item
  refine ⟨lt_length_states_of_mem_itemsAt hitem, ?_⟩
  cases hown with
  | shift hnext hkind htarget =>
      have hterminal := Grammar.mem_terminals_of_mem_body (Item.mem_body_of_next? hnext) hkind
      exact .inl (grammar.terminals_augmented ▸ hterminal)
  | reduce hnext hrule hproduction hlookahead =>
      exact FollowSets.mem_terminals_or_eq_endMarker hlookahead
  | accept hnext hrule => exact .inr rfl

/-- Gotos are from states of the automaton over nonterminals of the grammar. -/
theorem range_of_goto? (h : (Analysis.ofGrammar grammar).slr1 = .ok parser) {symbol : Symbol}
    {target : Nat} (hgoto : parser.table.goto? state symbol = some target) :
    state < parser.automaton.states.length ∧ symbol ∈ grammar.nonterminals := by
  rw [automaton_eq h]
  obtain ⟨htransition, hkind⟩ := (goto?_eq_some_iff h).mp hgoto
  obtain ⟨items, hitems, hsymbol, _⟩ := Automaton.getElem?_states_of_transition? htransition
  refine ⟨(List.getElem?_eq_some_iff.mp hitems).1, ?_⟩
  obtain ⟨item, _, hnext⟩ := ItemSet.mem_nextSymbols.mp hsymbol
  have hbody := Item.mem_body_of_next? hnext
  rcases Grammar.terminal_or_mem_nonterminals_of_mem_augmented_body hbody with hterminal | hmem
  · exact absurd hterminal (Symbol.not_isTerminal_of_isNonterminal hkind)
  · exact hmem

end ShiftReduce.Parser

end TableParsing
