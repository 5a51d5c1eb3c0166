import TableParsing.Proofs.Augmentation
import TableParsing.Proofs.ShiftReduce.Items
import TableParsing.Proofs.Tables
import TableParsing.ShiftReduce.Automaton

/-!
# The states of the automaton

An exploration never drops or moves a state (`prefix_exploreFrom`), and when it
ends, all states that one step leads to from its states are among them
(`successor_mem_exploreFrom`).  So the automaton of a grammar has a transition
for every symbol behind a dot, and it leads to the closed set of the moved items
(`transition?_eq_some_iff`).  What holds of the start state and of every set that
a step leads to holds of all states (`states_induct`): every state is closed, and
an item at the beginning of a rule was predicted there, except in the start state
the one that everything begins with.
-/

namespace TableParsing.ShiftReduce

namespace Exploration

variable {grammar : Grammar}

/-! ## Discovering states -/

theorem prefix_discover (exploration : Exploration grammar) (state : ItemSet)
    (h : state.Within grammar) : exploration.states <+: (exploration.discover state h).states := by
  unfold discover
  split
  · exact List.prefix_rfl
  · exact List.prefix_append ..

theorem mem_discover {exploration : Exploration grammar} {state other : ItemSet}
    {h : state.Within grammar} :
    other ∈ (exploration.discover state h).states ↔ other ∈ exploration.states ∨ other = state := by
  unfold discover
  split
  · rename_i hknown
    constructor
    · exact .inl
    · rintro (hother | rfl)
      · exact hother
      · exact hknown
  · exact List.mem_append.trans (or_congr Iff.rfl List.mem_singleton)

theorem prefix_foldl_discover (state : ItemSet) (h : state.Within grammar) (symbols : List Symbol)
    (exploration : Exploration grammar) :
    exploration.states <+: (symbols.foldl (fun found symbol =>
      found.discover (state.successor grammar symbol) (ItemSet.within_successor symbol h))
      exploration).states := by
  induction symbols generalizing exploration with
  | nil => exact List.prefix_rfl
  | cons symbol rest ih => exact (prefix_discover ..).trans (ih _)

theorem mem_foldl_discover {state other : ItemSet} {h : state.Within grammar}
    {symbols : List Symbol} {exploration : Exploration grammar} :
    other ∈ (symbols.foldl (fun found symbol =>
      found.discover (state.successor grammar symbol) (ItemSet.within_successor symbol h))
      exploration).states ↔
      other ∈ exploration.states ∨ ∃ symbol ∈ symbols, other = state.successor grammar symbol := by
  induction symbols generalizing exploration with
  | nil => simp
  | cons symbol rest ih =>
      rw [List.foldl_cons, ih, mem_discover]
      simp [or_assoc]

theorem prefix_visit (exploration : Exploration grammar) (state : ItemSet)
    (h : state.Within grammar) : exploration.states <+: (exploration.visit state h).states :=
  prefix_foldl_discover state h _ exploration

theorem mem_visit {exploration : Exploration grammar} {state other : ItemSet}
    {h : state.Within grammar} :
    other ∈ (exploration.visit state h).states ↔
      other ∈ exploration.states ∨
        ∃ symbol ∈ state.nextSymbols grammar, other = state.successor grammar symbol :=
  mem_foldl_discover (h := h)

/-! ## Visiting all of them -/

theorem prefix_exploreFrom (exploration : Exploration grammar) (number : Nat) :
    exploration.states <+: (exploration.exploreFrom number).states := by
  fun_induction exploration.exploreFrom number with
  | case1 exploration number hlt ih => exact (prefix_visit ..).trans ih
  | case2 exploration number hge => exact List.prefix_rfl

/-- What holds of the states known so far and is kept by every step holds of all states. -/
theorem exploreFrom_induct {motive : ItemSet → Prop} (exploration : Exploration grammar)
    (number : Nat) (known : ∀ state ∈ exploration.states, motive state)
    (step : ∀ state symbol, motive state → symbol ∈ state.nextSymbols grammar →
      motive (state.successor grammar symbol)) :
    ∀ state ∈ (exploration.exploreFrom number).states, motive state := by
  fun_induction exploration.exploreFrom number with
  | case1 exploration number hlt ih =>
      apply ih
      intro state hstate
      rcases mem_visit.mp hstate with hold | ⟨symbol, hsymbol, rfl⟩
      · exact known state hold
      · exact step _ symbol (known _ (List.getElem_mem hlt)) hsymbol
  | case2 exploration number hge => exact known

/-- When all states were visited, every step from one of them leads to one of them. -/
theorem successor_mem_exploreFrom (exploration : Exploration grammar) (number : Nat)
    (hvisited : ∀ visited < number, ∀ state, exploration.states[visited]? = some state →
      ∀ symbol ∈ state.nextSymbols grammar,
        state.successor grammar symbol ∈ exploration.states) :
    ∀ state ∈ (exploration.exploreFrom number).states,
      ∀ symbol ∈ state.nextSymbols grammar,
        state.successor grammar symbol ∈ (exploration.exploreFrom number).states := by
  fun_induction exploration.exploreFrom number with
  | case1 exploration number hlt ih =>
      apply ih
      intro visited hle state hstate symbol hsymbol
      -- the numbers below the bound were given out before the visit
      have hbefore : exploration.states[visited]? = some state := by
        obtain ⟨more, hmore⟩ := prefix_visit exploration exploration.states[number]
          (exploration.within _ (List.getElem_mem hlt))
        rwa [← hmore, List.getElem?_append_left (by omega)] at hstate
      apply mem_visit.mpr
      by_cases hnew : visited = number
      · subst hnew
        have hthis : exploration.states[visited] = state :=
          Option.some.inj ((List.getElem?_eq_getElem hlt).symm.trans hbefore)
        rw [hthis]
        exact .inr ⟨symbol, hsymbol, rfl⟩
      · exact .inl (hvisited visited (by omega) state hbefore symbol hsymbol)
  | case2 exploration number hge =>
      intro state hstate
      obtain ⟨visited, hvisitedState⟩ := List.mem_iff_getElem?.mp hstate
      have hlt := (List.getElem?_eq_some_iff.mp hvisitedState).1
      exact hvisited visited (by omega) state hvisitedState

end Exploration

namespace Automaton

/-- The items of a state; none if there is no such state. -/
def itemsAt (automaton : Automaton) (state : Nat) : ItemSet := automaton.states[state]?.getD ∅

theorem itemsAt_of_getElem? {automaton : Automaton} {state : Nat} {items : ItemSet}
    (h : automaton.states[state]? = some items) : automaton.itemsAt state = items := by
  rw [itemsAt, h, Option.getD_some]

theorem getElem?_states_of_mem_itemsAt {automaton : Automaton} {state : Nat} {item : Item}
    (h : item ∈ automaton.itemsAt state) :
    automaton.states[state]? = some (automaton.itemsAt state) := by
  unfold itemsAt at h ⊢
  cases hstate : automaton.states[state]? with
  | none =>
      rw [hstate] at h
      exact absurd h (SortedSet.not_mem_empty item)
  | some items => rfl

theorem mem_states_of_mem_itemsAt {automaton : Automaton} {state : Nat} {item : Item}
    (h : item ∈ automaton.itemsAt state) : automaton.itemsAt state ∈ automaton.states :=
  List.mem_of_getElem? (getElem?_states_of_mem_itemsAt h)

variable {grammar : Grammar}

/-! ## The states of a grammar -/

theorem states_induct {motive : ItemSet → Prop}
    (start : motive (.closure grammar.augmented [.initial grammar.startRule]))
    (step : ∀ state symbol, motive state → symbol ∈ state.nextSymbols grammar.augmented →
      motive (state.successor grammar.augmented symbol)) :
    ∀ state ∈ (ofGrammar grammar).states, motive state :=
  Exploration.exploreFrom_induct _ 0 (fun _ hstate => List.mem_singleton.mp hstate ▸ start) step

theorem itemsAt_zero (grammar : Grammar) :
    (ofGrammar grammar).itemsAt 0 = .closure grammar.augmented [.initial grammar.startRule] := by
  obtain ⟨more, hmore⟩ := Exploration.prefix_exploreFrom (Exploration.start grammar.augmented
    grammar.startRule (by simp [Grammar.augmented, Grammar.startRule])) 0
  have hstates : (ofGrammar grammar).states = .closure grammar.augmented
    [.initial grammar.startRule] :: more := hmore.symm
  rw [itemsAt, hstates]
  rfl

theorem initial_startRule_mem_itemsAt (grammar : Grammar) :
    .initial grammar.startRule ∈ (ofGrammar grammar).itemsAt 0 := by
  rw [itemsAt_zero]
  exact ItemSet.mem_closure List.mem_cons_self

theorem eq_initial_of_mem_itemsAt_zero {item : Item}
    (h : item ∈ (ofGrammar grammar).itemsAt 0) : item = .initial item.rule := by
  rw [itemsAt_zero] at h
  rcases ItemSet.mem_closure_cases h with hgiven | ⟨_, _, _, _, rule, _, rfl⟩
  · rw [List.mem_singleton.mp hgiven]
    rfl
  · rfl

/-! ## Transitions -/

theorem mem_transitionsOf {states : List ItemSet} {state target : Nat} {symbol : Symbol} :
    (⟨state, symbol⟩, target) ∈ transitionsOf grammar states ↔
      ∃ items, states[state]? = some items ∧ symbol ∈ items.nextSymbols grammar ∧
        states.idxOf? (items.successor grammar symbol) = some target := by
  simp only [transitionsOf, List.mem_flatMap, List.mem_filterMap, Option.map_eq_some_iff,
    Prod.exists, Prod.mk.injEq, Cell.mk.injEq]
  constructor
  · rintro ⟨items, number, hmem, other, hother, index, hindex, ⟨rfl, rfl⟩, rfl⟩
    exact ⟨items, List.mem_zipIdx_iff_getElem?.mp hmem, hother, hindex⟩
  · rintro ⟨items, hitems, hsymbol, hindex⟩
    exact ⟨items, state, List.mem_zipIdx_iff_getElem?.mpr hitems, symbol, hsymbol, target, hindex,
      ⟨rfl, rfl⟩, rfl⟩

/-- The transitions of an automaton are those that its states and steps make. -/
theorem transition?_eq_some_iff {state target : Nat} {symbol : Symbol} :
    (ofGrammar grammar).transition? state symbol = some target ↔
      ∃ items, (ofGrammar grammar).states[state]? = some items ∧
        symbol ∈ items.nextSymbols grammar.augmented ∧
        (ofGrammar grammar).states.idxOf? (items.successor grammar.augmented symbol) =
          some target := by
  have hfunctional : ∀ (cell : Cell Nat) first second,
      (cell, first) ∈ transitionsOf grammar.augmented (statesOf grammar) →
      (cell, second) ∈ transitionsOf grammar.augmented (statesOf grammar) → first = second := by
    intro cell first second hfirst hsecond
    -- the state of a cell has one successor over its symbol
    obtain ⟨items, hitems, _, hindex⟩ := mem_transitionsOf.mp hfirst
    obtain ⟨items', hitems', _, hindex'⟩ := mem_transitionsOf.mp hsecond
    rw [hitems] at hitems'
    cases hitems'
    exact Option.some.inj (hindex.symm.trans hindex')
  rw [transition?, ofGrammar, SortedMap.get?_ofList hfunctional]
  exact mem_transitionsOf

theorem getElem?_states_of_transition? {state target : Nat} {symbol : Symbol}
    (h : (ofGrammar grammar).transition? state symbol = some target) :
    ∃ items, (ofGrammar grammar).states[state]? = some items ∧
      symbol ∈ items.nextSymbols grammar.augmented ∧
      (ofGrammar grammar).states[target]? = some (items.successor grammar.augmented symbol) := by
  obtain ⟨items, hitems, hsymbol, hindex⟩ := transition?_eq_some_iff.mp h
  obtain ⟨hlt, hget, _⟩ := List.idxOf?_eq_some_iff.mp hindex
  exact ⟨items, hitems, hsymbol, by rw [List.getElem?_eq_getElem hlt, hget]⟩

theorem itemsAt_of_transition? {state target : Nat} {symbol : Symbol}
    (h : (ofGrammar grammar).transition? state symbol = some target) :
    (ofGrammar grammar).itemsAt target =
      ((ofGrammar grammar).itemsAt state).successor grammar.augmented symbol := by
  obtain ⟨items, hitems, _, htarget⟩ := getElem?_states_of_transition? h
  rw [itemsAt_of_getElem? htarget, itemsAt_of_getElem? hitems]

theorem successor_mem_states {items : ItemSet} (h : items ∈ (ofGrammar grammar).states)
    {symbol : Symbol} (hsymbol : symbol ∈ items.nextSymbols grammar.augmented) :
    items.successor grammar.augmented symbol ∈ (ofGrammar grammar).states :=
  Exploration.successor_mem_exploreFrom _ 0 (fun _ hlt => absurd hlt (Nat.not_lt_zero _)) items h
    symbol hsymbol

/-- Over the symbol behind a dot there is a transition, and the dot has moved in its target. -/
theorem exists_transition? {state : Nat} {item : Item}
    (h : item ∈ (ofGrammar grammar).itemsAt state) {symbol : Symbol}
    (hnext : item.next? grammar.augmented = some symbol) :
    ∃ target, (ofGrammar grammar).transition? state symbol = some target ∧
      item.advanced ∈ (ofGrammar grammar).itemsAt target := by
  have hsymbol := ItemSet.mem_nextSymbols.mpr ⟨item, h, hnext⟩
  have hmem := successor_mem_states (mem_states_of_mem_itemsAt h) hsymbol
  obtain ⟨target, htarget⟩ := Option.isSome_iff_exists.mp (List.isSome_idxOf?.mpr hmem)
  have htransition : (ofGrammar grammar).transition? state symbol = some target :=
    transition?_eq_some_iff.mpr ⟨_, getElem?_states_of_mem_itemsAt h, hsymbol, htarget⟩
  refine ⟨target, htransition, ?_⟩
  rw [itemsAt_of_transition? htransition]
  exact ItemSet.advanced_mem_successor h hnext

/-! ## Where items come from -/

/-- What is predicted for the symbol behind a dot is a production of the grammar for that symbol. -/
theorem exists_production_of_predicted {item : Item} {symbol : Symbol}
    (hnext : item.next? grammar.augmented = some symbol) {rule : Nat}
    (hrule : rule ∈ grammar.augmented.rulesFor symbol) :
    ∃ production, grammar.production? rule = some production ∧ production.lhs = symbol := by
  apply (Grammar.mem_augmented_rulesFor ?_).mp hrule
  rintro rfl
  exact Grammar.augmentedStart_not_mem_augmented_body _ (Item.mem_body_of_next? hnext)

theorem closed_of_mem_states :
    ∀ state ∈ (ofGrammar grammar).states, ItemSet.Closed grammar.augmented state :=
  states_induct (ItemSet.closed_closure _) fun _ _ _ _ => ItemSet.closed_closure _

theorem closed_itemsAt (state : Nat) :
    ItemSet.Closed grammar.augmented ((ofGrammar grammar).itemsAt state) :=
  fun item hitem => closed_of_mem_states _ (mem_states_of_mem_itemsAt hitem) item hitem

/-- The productions of the symbol behind a dot are predicted. -/
theorem initial_mem_itemsAt {state : Nat} {item : Item}
    (h : item ∈ (ofGrammar grammar).itemsAt state) {rule : Nat} {production : Production}
    (hproduction : grammar.production? rule = some production)
    (hnext : item.next? grammar.augmented = some production.lhs) :
    .initial rule ∈ (ofGrammar grammar).itemsAt state :=
  closed_itemsAt state item h _ hnext rule (Grammar.mem_rulesFor.mpr
    ⟨production, Grammar.augmented_production?_of_production? hproduction, rfl⟩)

/-- Behind a transition an item has moved its dot, or it was predicted. -/
theorem mem_itemsAt_cases {state target : Nat} {symbol : Symbol}
    (h : (ofGrammar grammar).transition? state symbol = some target) {item : Item}
    (hitem : item ∈ (ofGrammar grammar).itemsAt target) :
    (∃ moved ∈ (ofGrammar grammar).itemsAt state, moved.next? grammar.augmented = some symbol ∧
        item = moved.advanced) ∨
      ∃ predicting ∈ (ofGrammar grammar).itemsAt target, ∃ next,
        predicting.next? grammar.augmented = some next ∧
          ∃ rule ∈ grammar.augmented.rulesFor next, item = .initial rule := by
  rw [itemsAt_of_transition? h] at hitem ⊢
  rcases ItemSet.mem_closure_cases hitem with hmoved | hpredicted
  · exact .inl (ItemSet.mem_kernel.mp hmoved)
  · exact .inr hpredicted

end Automaton

end TableParsing.ShiftReduce
