import TableParsing.Proofs.ShiftReduce.Worklist

/-!
# The canonical collection of states

The automaton of a grammar is the canonical collection of LR(0) item sets of the
augmented grammar (`canonical_collection`): it begins with the closure of the start
item, its states are different closed sets of items that all have some item, a
symbol leads on from a state exactly if it stands behind a dot there, namely to
the closed set of the moved items, and every state is led to from the first one.
It is what the worklist ends with.

A string leads from state to state along the transitions over its symbols
(`Automaton.follow?`).
-/

namespace TableParsing.ShiftReduce.Automaton

/-! ## Paths -/

/-- The state that a string leads to from a state. -/
def follow? (automaton : Automaton) (state : Nat) : List Symbol → Option Nat
  | [] => some state
  | symbol :: rest =>
    (automaton.transition? state symbol).bind fun target => automaton.follow? target rest

@[simp] theorem follow?_nil (automaton : Automaton) (state : Nat) :
    automaton.follow? state [] = some state := rfl

@[simp] theorem follow?_cons (automaton : Automaton) (state : Nat) (symbol : Symbol)
    (rest : List Symbol) : automaton.follow? state (symbol :: rest) =
      (automaton.transition? state symbol).bind fun target => automaton.follow? target rest := rfl

theorem follow?_append (automaton : Automaton) (state : Nat) (first second : List Symbol) :
    automaton.follow? state (first ++ second) =
      (automaton.follow? state first).bind fun middle => automaton.follow? middle second := by
  induction first generalizing state with
  | nil => rfl
  | cons symbol first ih => simp only [List.cons_append, follow?_cons, ih, Option.bind_assoc]

/-- The last transition of a path. -/
theorem follow?_concat_eq_some_iff {automaton : Automaton} {state target : Nat}
    {read : List Symbol} {symbol : Symbol} :
    automaton.follow? state (read ++ [symbol]) = some target ↔
      ∃ middle, automaton.follow? state read = some middle ∧
        automaton.transition? middle symbol = some target := by
  simp [follow?_append, Option.bind_eq_some_iff]

variable {grammar : Grammar}

/-! ## The states -/

theorem states_nodup (grammar : Grammar) : (ofGrammar grammar).states.Nodup :=
  Exploration.distinct _

theorem states_within (grammar : Grammar) :
    ∀ state ∈ (ofGrammar grammar).states, state.Within grammar.augmented :=
  Exploration.within _

theorem exists_mem_of_mem_states :
    ∀ state ∈ (ofGrammar grammar).states, ∃ item, item ∈ state := by
  apply states_induct (motive := fun state => ∃ item, item ∈ state)
  · exact ⟨_, ItemSet.mem_closure List.mem_cons_self⟩
  · intro state symbol _ hsymbol
    obtain ⟨item, hitem, hnext⟩ := ItemSet.mem_nextSymbols.mp hsymbol
    exact ⟨_, ItemSet.advanced_mem_successor hitem hnext⟩

theorem exists_transition?_iff {state : Nat} {symbol : Symbol} :
    (∃ target, (ofGrammar grammar).transition? state symbol = some target) ↔
      ∃ items, (ofGrammar grammar).states[state]? = some items ∧
        ∃ item ∈ items, item.next? grammar.augmented = some symbol := by
  constructor
  · rintro ⟨target, htarget⟩
    obtain ⟨items, hitems, hsymbol, _⟩ := transition?_eq_some_iff.mp htarget
    exact ⟨items, hitems, ItemSet.mem_nextSymbols.mp hsymbol⟩
  · rintro ⟨items, hitems, item, hitem, hnext⟩
    rw [← itemsAt_of_getElem? hitems] at hitem
    obtain ⟨target, htarget, _⟩ := exists_transition? hitem hnext
    exact ⟨target, htarget⟩

theorem getElem?_states_zero (grammar : Grammar) : (ofGrammar grammar).states[0]? =
    some (.closure grammar.augmented [.initial grammar.startRule]) := by
  rw [getElem?_states_of_mem_itemsAt (initial_startRule_mem_itemsAt grammar), itemsAt_zero]

theorem exists_path {state : Nat} (h : state < (ofGrammar grammar).states.length) :
    ∃ path, (ofGrammar grammar).follow? 0 path = some state := by
  have hall : ∀ items ∈ (ofGrammar grammar).states, ∃ path number,
      (ofGrammar grammar).follow? 0 path = some number ∧
        (ofGrammar grammar).states[number]? = some items := by
    apply states_induct (motive := fun items => ∃ path number,
      (ofGrammar grammar).follow? 0 path = some number ∧
        (ofGrammar grammar).states[number]? = some items)
    · exact ⟨[], 0, rfl, getElem?_states_zero grammar⟩
    · rintro items symbol ⟨path, number, hpath, hitems⟩ hsymbol
      obtain ⟨item, hitem, hnext⟩ := ItemSet.mem_nextSymbols.mp hsymbol
      rw [← itemsAt_of_getElem? hitems] at hitem
      obtain ⟨target, htarget, _⟩ := exists_transition? hitem hnext
      refine ⟨path ++ [symbol], target, follow?_concat_eq_some_iff.mpr ⟨number, hpath, htarget⟩, ?_⟩
      obtain ⟨known, hknown, _, hstate⟩ := getElem?_states_of_transition? htarget
      cases hitems.symm.trans hknown
      exact hstate
  obtain ⟨path, number, hpath, hnumber⟩ := hall _ (List.getElem_mem h)
  -- the states are distinct, so the path leads to this one
  rw [← List.getElem?_eq_getElem h] at hnumber
  have hsame := (List.getElem?_inj h (states_nodup grammar)).mp hnumber.symm
  exact ⟨path, hsame ▸ hpath⟩

theorem exists_mem_itemsAt_of_follow? {read : List Symbol} {state : Nat}
    (h : (ofGrammar grammar).follow? 0 read = some state) :
    ∃ item, item ∈ (ofGrammar grammar).itemsAt state := by
  rcases List.eq_nil_or_concat read with rfl | ⟨front, symbol, rfl⟩
  · cases h
    exact ⟨_, initial_startRule_mem_itemsAt grammar⟩
  · rw [List.concat_eq_append] at h
    obtain ⟨middle, _, htransition⟩ := follow?_concat_eq_some_iff.mp h
    obtain ⟨_, _, _, hstate⟩ := getElem?_states_of_transition? htransition
    rw [itemsAt_of_getElem? hstate]
    exact exists_mem_of_mem_states _ (List.mem_of_getElem? hstate)

/-! ## The collection -/

/-- The properties that make an automaton the canonical collection of a grammar's item sets. -/
structure IsCanonical (grammar : Grammar) (automaton : Automaton) : Prop where
  /-- The first state is the closure of the start item. -/
  start : automaton.states[0]? =
    some (.closure grammar.augmented [.initial grammar.startRule])
  distinct : automaton.states.Nodup
  nonempty : ∀ state ∈ automaton.states, ∃ item, item ∈ state
  closed : ∀ state ∈ automaton.states, state.Closed grammar.augmented
  /-- Every item has a rule of the augmented grammar and a dot within its body. -/
  within : ∀ state ∈ automaton.states, state.Within grammar.augmented
  /-- A symbol leads on from the states in which it stands behind a dot. -/
  defined : ∀ state symbol, (∃ target, automaton.transition? state symbol = some target) ↔
    ∃ items, automaton.states[state]? = some items ∧
      ∃ item ∈ items, item.next? grammar.augmented = some symbol
  /-- It leads to the closed set of the moved items. -/
  target : ∀ state symbol target, automaton.transition? state symbol = some target →
    ∃ items next, automaton.states[state]? = some items ∧
      items.goto? grammar.augmented symbol = some next ∧ automaton.states[target]? = some next
  reachable : ∀ state < automaton.states.length, ∃ path, automaton.follow? 0 path = some state

/-- The worklist that begins with the start state ends, and what it ends with is the canonical
collection of the grammar. -/
theorem canonical_collection (grammar : Grammar) :
    ∃ final, Worklist.Ends grammar.augmented
        (Worklist.start grammar.augmented grammar.startRule) final ∧
      (ofGrammar grammar).states = final.states ∧
      (ofGrammar grammar).transitions = final.transitions ∧
      IsCanonical grammar (ofGrammar grammar) := by
  obtain ⟨final, hends, hstates, htransitions⟩ := Worklist.exists_ends grammar
  refine ⟨final, hends, hstates.symm, htransitions.symm, ?_⟩
  constructor
  case start => exact getElem?_states_zero grammar
  case distinct => exact states_nodup grammar
  case nonempty => exact exists_mem_of_mem_states
  case closed => exact closed_of_mem_states
  case within => exact states_within grammar
  case defined => exact fun state symbol => exists_transition?_iff
  case target =>
    intro state symbol target h
    obtain ⟨items, hitems, hsymbol, htarget⟩ := getElem?_states_of_transition? h
    exact ⟨items, _, hitems, Worklist.goto?_of_mem_nextSymbols hsymbol, htarget⟩
  case reachable => exact fun state => exists_path

end TableParsing.ShiftReduce.Automaton
