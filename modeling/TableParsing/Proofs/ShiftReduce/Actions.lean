import TableParsing.Proofs.ShiftReduce.States
import TableParsing.ShiftReduce.Parser

/-!
# What a shift-reduce table demands

The items of a state demand actions (`Demand`, and `DemandOf` for one item): to
shift the terminal behind a dot, to reduce a completed item under the FOLLOW set of
its left-hand side, and to accept before the end marker.  Different actions in one
cell clash, whatever they are, so a table that was made holds exactly what is
demanded (`action?_eq_some_iff`).  A goto is a transition over a nonterminal
(`goto?_eq_some_iff`).
-/

namespace TableParsing.ShiftReduce

variable {grammar : Grammar} {follow : FollowSets} {parser : Parser}

namespace Table

/-- The actions that a state demands before the next input symbol. -/
inductive Demand (automaton : Automaton) (follow : FollowSets) (state : Nat) :
    Symbol → Action → Prop
  | shift {item : Item} {symbol : Symbol} {target : Nat}
      (hitem : item ∈ automaton.itemsAt state)
      (hnext : item.next? automaton.grammar = some symbol) (hkind : symbol.isTerminal = true)
      (htarget : automaton.transition? state symbol = some target) :
      Demand automaton follow state symbol (.shift target)
  | reduce {item : Item} {production : Production} {lookahead : Symbol}
      (hitem : item ∈ automaton.itemsAt state) (hnext : item.next? automaton.grammar = none)
      (hrule : item.rule ≠ automaton.startRule)
      (hproduction : automaton.grammar.production? item.rule = some production)
      (hlookahead : lookahead ∈ follow.setOf production.lhs) :
      Demand automaton follow state lookahead (.reduce item.rule)
  | accept {item : Item} (hitem : item ∈ automaton.itemsAt state)
      (hnext : item.next? automaton.grammar = none) (hrule : item.rule = automaton.startRule) :
      Demand automaton follow state .endMarker .accept

/-- The actions that one item demands in a state before the next input symbol. -/
inductive DemandOf (automaton : Automaton) (follow : FollowSets) (state : Nat) (item : Item) :
    Symbol → Action → Prop
  | shift {symbol : Symbol} {target : Nat} (hnext : item.next? automaton.grammar = some symbol)
      (hkind : symbol.isTerminal = true)
      (htarget : automaton.transition? state symbol = some target) :
      DemandOf automaton follow state item symbol (.shift target)
  | reduce {production : Production} {lookahead : Symbol}
      (hnext : item.next? automaton.grammar = none) (hrule : item.rule ≠ automaton.startRule)
      (hproduction : automaton.grammar.production? item.rule = some production)
      (hlookahead : lookahead ∈ follow.setOf production.lhs) :
      DemandOf automaton follow state item lookahead (.reduce item.rule)
  | accept (hnext : item.next? automaton.grammar = none) (hrule : item.rule = automaton.startRule) :
      DemandOf automaton follow state item .endMarker .accept

variable {automaton : Automaton} {state : Nat} {lookahead : Symbol} {action : Action}

theorem mem_itemDemands {item : Item} {row : Nat} :
    (⟨row, lookahead⟩, action) ∈ itemDemands automaton follow state item ↔
      row = state ∧ DemandOf automaton follow state item lookahead action := by
  constructor
  · intro h
    unfold itemDemands at h
    split at h
    · rename_i symbol hnext
      split at h
      · rename_i hkind
        split at h
        · rename_i target htarget
          cases List.mem_singleton.mp h
          exact ⟨rfl, .shift hnext hkind htarget⟩
        · cases h
      · cases h
    · rename_i hnext
      split at h
      · rename_i hrule
        cases List.mem_singleton.mp h
        exact ⟨rfl, .accept hnext hrule⟩
      · rename_i hrule
        split at h
        · rename_i production hproduction
          obtain ⟨symbol, hsymbol, hsame⟩ := List.mem_map.mp h
          cases hsame
          exact ⟨rfl, .reduce hnext hrule hproduction hsymbol⟩
        · cases h
  · rintro ⟨rfl, h⟩
    cases h with
    | shift hnext hkind htarget => simp [itemDemands, hnext, hkind, htarget]
    | reduce hnext hrule hproduction hlookahead =>
        simp [itemDemands, hnext, hrule, hproduction, hlookahead]
    | accept hnext hrule => simp [itemDemands, hnext, hrule]

theorem DemandOf.demand {item : Item} (hitem : item ∈ automaton.itemsAt state)
    (h : DemandOf automaton follow state item lookahead action) :
    Demand automaton follow state lookahead action := by
  cases h with
  | shift hnext hkind htarget => exact .shift hitem hnext hkind htarget
  | reduce hnext hrule hproduction hlookahead =>
      exact .reduce hitem hnext hrule hproduction hlookahead
  | accept hnext hrule => exact .accept hitem hnext hrule

theorem Demand.exists_item (h : Demand automaton follow state lookahead action) :
    ∃ item ∈ automaton.itemsAt state, DemandOf automaton follow state item lookahead action := by
  cases h with
  | shift hitem hnext hkind htarget => exact ⟨_, hitem, .shift hnext hkind htarget⟩
  | reduce hitem hnext hrule hproduction hlookahead =>
      exact ⟨_, hitem, .reduce hnext hrule hproduction hlookahead⟩
  | accept hitem hnext hrule => exact ⟨_, hitem, .accept hnext hrule⟩

theorem itemsAt_of_mem_zipIdx {items : ItemSet} {number : Nat}
    (h : (items, number) ∈ automaton.states.zipIdx) : automaton.itemsAt number = items :=
  Automaton.itemsAt_of_getElem? (List.mem_zipIdx_iff_getElem?.mp h)

theorem mem_zipIdx_of_mem_itemsAt {item : Item} (h : item ∈ automaton.itemsAt state) :
    (automaton.itemsAt state, state) ∈ automaton.states.zipIdx :=
  List.mem_zipIdx_iff_getElem?.mpr (Automaton.getElem?_states_of_mem_itemsAt h)

theorem mem_demands :
    (⟨state, lookahead⟩, action) ∈ demands automaton follow ↔
      Demand automaton follow state lookahead action := by
  simp only [demands, List.mem_flatMap, SortedSet.mem_toList, Prod.exists, mem_itemDemands]
  constructor
  · rintro ⟨items, number, hmem, item, hitem, rfl, hdemand⟩
    exact hdemand.demand (itemsAt_of_mem_zipIdx hmem ▸ hitem)
  · intro h
    obtain ⟨item, hitem, hdemand⟩ := h.exists_item
    exact ⟨_, state, mem_zipIdx_of_mem_itemsAt hitem, item, hitem, rfl, hdemand⟩

/-- Demands of one cell that do not clash are the same. -/
theorem eq_of_clash?_eq_none {cell : Cell Nat} {earlier later : Action}
    (hearlier : Demand automaton follow cell.row cell.column earlier)
    (hlater : Demand automaton follow cell.row cell.column later)
    (h : clash? automaton.grammar cell earlier later = none) : earlier = later := by
  obtain ⟨row, column⟩ := cell
  -- a reduction clashes with anything else, and the end marker is never shifted
  cases hearlier with
  | shift _ _ hkind htarget =>
      cases hlater with
      | shift _ _ _ htarget' => rw [Option.some.inj (htarget.symm.trans htarget')]
      | reduce _ _ _ hproduction => simp [clash?, hproduction] at h
      | accept => cases hkind
  | reduce _ _ _ hproduction =>
      cases hlater with
      | shift => simp [clash?, hproduction] at h
      | reduce _ _ _ hproduction' =>
          by_contra hne
          simp only [Action.reduce.injEq] at hne
          simp [clash?, hne, hproduction, hproduction'] at h
      | accept => simp [clash?, hproduction] at h
  | accept =>
      cases hlater with
      | shift _ _ hkind => cases hkind
      | reduce _ _ _ hproduction => simp [clash?, hproduction] at h
      | accept => rfl

theorem clash?_self (grammar : Grammar) (cell : Cell Nat) (action : Action) :
    clash? grammar cell action action = none := by
  cases action with
  | reduce rule => simp [clash?]
  | shift | accept => rfl

end Table

namespace Parser

theorem exists_table_of_ofFollow (h : ofFollow grammar follow = .ok parser) :
    parser.automaton = Automaton.ofGrammar grammar ∧
      SortedMap.fill (Table.clash? grammar.augmented)
        (Table.demands (Automaton.ofGrammar grammar) follow) ∅ = .ok parser.table.actions ∧
      parser.table.gotos = Table.nonterminalTransitions (Automaton.ofGrammar grammar) := by
  simp only [ofFollow, Table.ofFollow] at h
  cases hfill : SortedMap.fill (Table.clash? (Automaton.ofGrammar grammar).grammar)
      (Table.demands (Automaton.ofGrammar grammar) follow) ∅ with
  | error conflict =>
      rw [hfill] at h
      cases h
  | ok actions =>
      rw [hfill] at h
      cases h
      exact ⟨rfl, hfill, rfl⟩

theorem automaton_eq (h : ofFollow grammar follow = .ok parser) :
    parser.automaton = Automaton.ofGrammar grammar :=
  (exists_table_of_ofFollow h).1

theorem exists_ofFollow_iff : (∃ parser, ofFollow grammar follow = .ok parser) ↔
    ∀ state lookahead first second,
      Table.Demand (Automaton.ofGrammar grammar) follow state lookahead first →
      Table.Demand (Automaton.ofGrammar grammar) follow state lookahead second →
        first = second := by
  simp only [ofFollow, Table.ofFollow, exists_map_eq_ok_iff]
  rw [SortedMap.exists_fill_iff]
  · exact ⟨fun h state lookahead first second hfirst hsecond => h ⟨state, lookahead⟩ first second
      (Table.mem_demands.mpr hfirst) (Table.mem_demands.mpr hsecond),
      fun h cell first second hfirst hsecond => h cell.row cell.column first second
        (Table.mem_demands.mp hfirst) (Table.mem_demands.mp hsecond)⟩
  · intro cell first second hfirst hsecond
    constructor
    · exact Table.eq_of_clash?_eq_none (Table.mem_demands.mp hfirst) (Table.mem_demands.mp hsecond)
    · rintro rfl
      exact Table.clash?_self _ cell first

/-- A table that was made holds the demanded actions, and nothing where there is no demand. -/
theorem action?_eq_some_iff (h : ofFollow grammar follow = .ok parser) {state : Nat}
    {lookahead : Symbol} {action : Action} :
    parser.table.action? state lookahead = some action ↔
      Table.Demand (Automaton.ofGrammar grammar) follow state lookahead action := by
  obtain ⟨_, hfill, _⟩ := exists_table_of_ofFollow h
  rw [Table.action?, SortedMap.get?_of_fill hfill fun cell earlier later hearlier hlater =>
    Table.eq_of_clash?_eq_none (Table.mem_demands.mp hearlier) (Table.mem_demands.mp hlater)]
  exact Table.mem_demands

/-- A goto is a transition over a nonterminal. -/
theorem goto?_eq_some_iff (h : ofFollow grammar follow = .ok parser) {state target : Nat}
    {symbol : Symbol} :
    parser.table.goto? state symbol = some target ↔
      (Automaton.ofGrammar grammar).transition? state symbol = some target ∧
        symbol.isNonterminal = true := by
  have hmem : ∀ {cell : Cell Nat} {target : Nat},
      (cell, target) ∈ (Automaton.ofGrammar grammar).transitions.toList.filter
          (fun entry => entry.1.column.isNonterminal) ↔
        (Automaton.ofGrammar grammar).transitions.get? cell = some target ∧
          cell.column.isNonterminal = true := by
    intro cell target
    rw [List.mem_filter, SortedMap.mem_toList_iff]
  rw [Table.goto?, (exists_table_of_ofFollow h).2.2, Table.nonterminalTransitions,
    SortedMap.get?_ofList, hmem]
  · rfl
  · intro cell first second hfirst hsecond
    exact Option.some.inj ((hmem.mp hfirst).1.symm.trans (hmem.mp hsecond).1)

section OwnRule

variable {rule : Nat} {production : Production}

/-- A rule of the grammar has the same number in the automaton's grammar. -/
theorem automaton_production? (h : ofFollow grammar follow = .ok parser)
    (hproduction : grammar.production? rule = some production) :
    parser.automaton.grammar.production? rule = some production := by
  rw [automaton_eq h]
  exact Grammar.augmented_production?_of_production? hproduction

theorem goto?_lhs (h : ofFollow grammar follow = .ok parser)
    (hproduction : grammar.production? rule = some production) {state target : Nat}
    (htarget : (Automaton.ofGrammar grammar).transition? state production.lhs = some target) :
    parser.table.goto? state production.lhs = some target :=
  (goto?_eq_some_iff h).mpr
    ⟨htarget, Grammar.lhs_isNonterminal (Grammar.mem_of_production? hproduction)⟩

end OwnRule

end Parser

end TableParsing.ShiftReduce
