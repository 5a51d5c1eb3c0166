import TableParsing.Proofs.ShiftReduce.States

/-!
# The worklist of the automaton

The automaton can be computed with a queue: the state in front is taken off it,
and for each symbol behind a dot in that state the set that the symbol leads to is
looked up in a map of the states' numbers.  A new one gets the next number and joins
the queue; in either case the transition is entered (`Worklist.round?`).

`Worklist.Ends` is the loop of these rounds; it is stuck at a number that no state
has.  A worklist that `Follows` an exploration holds the explored states, knows their
numbers, has the numbers of those that were not visited in its queue, and holds the
transitions from all others.  A round keeps this with the next state visited
(`Follows.round`), so the loop ends when the exploration does, with the states and
the transitions of the automaton (`Worklist.exists_ends`).
-/

namespace TableParsing.ShiftReduce

/-- The states and transitions found so far, and the numbers of the states to be visited. -/
structure Worklist where
  states : List ItemSet
  /-- The number of each state. -/
  numbers : SortedMap ItemSet Nat
  transitions : SortedMap (Cell Nat) Nat
  queue : List Nat
deriving DecidableEq

namespace Worklist

variable (grammar : Grammar)

/-- Follows a symbol from a state: the state that it leads to has a number, or it is added at the
end. -/
def follow (number : Nat) (items : ItemSet) (work : Worklist) (symbol : Symbol) : Worklist :=
  match items.goto? grammar symbol with
  | none => work
  | some target =>
    match work.numbers.get? target with
    | some known =>
      { work with transitions := work.transitions.insert ⟨number, symbol⟩ known }
    | none =>
      { states := work.states ++ [target]
        numbers := work.numbers.insert target work.states.length
        transitions := work.transitions.insert ⟨number, symbol⟩ work.states.length
        queue := work.queue ++ [work.states.length] }

/-- Visits the first state of the queue; none if the queue is empty, or if there is no such state. -/
def round? (work : Worklist) : Option Worklist :=
  match work.queue with
  | [] => none
  | number :: rest =>
    work.states[number]?.map fun items =>
      (items.nextSymbols grammar).toList.foldl (follow grammar number items)
        { work with queue := rest }

/-- The worklist that knows only the start state. -/
def start (rule : Nat) : Worklist where
  states := [.closure grammar [.initial rule]]
  numbers := (∅ : SortedMap ItemSet Nat).insert (.closure grammar [.initial rule]) 0
  transitions := ∅
  queue := [0]

/-- Rounds are made from a worklist on, up to one with an empty queue. -/
inductive Ends : Worklist → Worklist → Prop
  | done {work : Worklist} (h : work.queue = []) : Ends work work
  | round {work next final : Worklist} (h : round? grammar work = some next)
      (later : Ends next final) : Ends work final

variable {grammar}

/-! ## Following a symbol -/

theorem getElem?_mono {first second : List ItemSet} (h : first <+: second) {number : Nat}
    {items : ItemSet} (hitems : first[number]? = some items) : second[number]? = some items := by
  obtain ⟨more, rfl⟩ := h
  exact List.getElem?_append_left (List.getElem?_eq_some_iff.mp hitems).1 ▸ hitems

theorem goto?_of_mem_nextSymbols {items : ItemSet} {symbol : Symbol}
    (h : symbol ∈ items.nextSymbols grammar) :
    items.goto? grammar symbol = some (items.successor grammar symbol) := by
  obtain ⟨item, hitem, hnext⟩ := ItemSet.mem_nextSymbols.mp h
  have hmoved := ItemSet.mem_kernel.mpr ⟨item, hitem, hnext, rfl⟩
  have hfilled : (items.kernel grammar symbol).isEmpty = false :=
    List.isEmpty_eq_false_iff_exists_mem.mpr ⟨_, hmoved⟩
  rw [ItemSet.goto?, hfilled]
  rfl

theorem idxOf?_eq_some_iff (exploration : Exploration grammar) {items : ItemSet} {number : Nat} :
    exploration.states.idxOf? items = some number ↔ exploration.states[number]? = some items := by
  constructor
  · intro h
    obtain ⟨hlt, hget, _⟩ := List.idxOf?_eq_some_iff.mp h
    rw [List.getElem?_eq_getElem hlt, hget]
  · intro h
    obtain ⟨hlt, hget⟩ := List.getElem?_eq_some_iff.mp h
    refine List.idxOf?_eq_some_iff.mpr ⟨hlt, hget, fun other hother hsame => ?_⟩
    have hplaces : exploration.states[other]? = exploration.states[number]? := by
      rw [List.getElem?_eq_getElem (Nat.lt_trans hother hlt), hsame, h]
    have := (List.getElem?_inj (Nat.lt_trans hother hlt) exploration.distinct).mp hplaces
    omega

/-- A worklist holds the states of an exploration, and their numbers.  Those from a number on wait in
the queue, and from the others the transitions of certain states and symbols were entered. -/
structure Follows (exploration : Exploration grammar) (unvisited : Nat)
    (entered : Nat → Symbol → Prop) (work : Worklist) : Prop where
  states_eq : work.states = exploration.states
  number_iff : ∀ {items number},
    work.numbers.get? items = some number ↔ exploration.states[number]? = some items
  queue_eq : work.queue = List.range' unvisited (exploration.states.length - unvisited)
  exists_target : ∀ state symbol,
    (∃ target, work.transitions.get? ⟨state, symbol⟩ = some target) ↔ entered state symbol
  leads : ∀ {state symbol target}, work.transitions.get? ⟨state, symbol⟩ = some target →
    ∃ items, exploration.states[state]? = some items ∧
      exploration.states[target]? = some (items.successor grammar symbol)

variable {exploration : Exploration grammar} {unvisited : Nat} {entered : Nat → Symbol → Prop}
  {work : Worklist}

/-- Entering a transition keeps all that was entered before, also when states were added. -/
theorem Follows.enter (h : Follows exploration unvisited entered work)
    {grown : Exploration grammar} (hgrown : exploration.states <+: grown.states) {number : Nat}
    {items : ItemSet} (hitems : grown.states[number]? = some items) {symbol : Symbol} {target : Nat}
    (htarget : grown.states[target]? = some (items.successor grammar symbol))
    {numbers : SortedMap ItemSet Nat}
    (hnumbers : ∀ {other place}, numbers.get? other = some place ↔ grown.states[place]? = some other) :
    Follows grown unvisited (fun state other => entered state other ∨ state = number ∧ other = symbol)
      ⟨grown.states, numbers, work.transitions.insert ⟨number, symbol⟩ target,
        List.range' unvisited (grown.states.length - unvisited)⟩ where
  states_eq := rfl
  number_iff := hnumbers
  queue_eq := rfl
  exists_target state other := by
    rw [← h.exists_target, SortedMap.get?_insert]
    split
    · rename_i hsame
      cases hsame
      exact iff_of_true ⟨target, rfl⟩ (.inr ⟨rfl, rfl⟩)
    · rename_i hother
      rw [or_iff_left]
      rintro ⟨rfl, rfl⟩
      exact hother rfl
  leads {state other found} hfound := by
    rw [SortedMap.get?_insert] at hfound
    split at hfound
    · rename_i hsame
      cases hsame
      cases hfound
      exact ⟨items, hitems, htarget⟩
    · obtain ⟨known, hknown, hleads⟩ := h.leads hfound
      exact ⟨known, getElem?_mono hgrown hknown, getElem?_mono hgrown hleads⟩

/-- A new state gets the next number, and the others keep theirs. -/
private theorem getElem?_concat_eq_some_iff {states : List ItemSet} {items target : ItemSet} {place : Nat}
    (hnew : target ∉ states) : (if items = target then some states.length = some place
      else states[place]? = some items) ↔ (states ++ [target])[place]? = some items := by
  rcases Nat.lt_trichotomy place states.length with hlt | rfl | hgt
  · rw [List.getElem?_append_left hlt]
    split
    · rename_i hsame
      refine iff_of_false (fun h => Nat.ne_of_gt hlt (Option.some.inj h)) fun h => hnew ?_
      exact hsame ▸ List.mem_of_getElem? h
    · rfl
  · rw [List.getElem?_concat_length, List.getElem?_eq_none (Nat.le_refl _)]
    simp [eq_comm]
  · rw [List.getElem?_eq_none (Nat.le_of_lt hgt), List.getElem?_eq_none (by simp; omega)]
    simp [Nat.ne_of_lt hgt]

/-- Following a symbol discovers the state that it leads to. -/
theorem Follows.follow (h : Follows exploration unvisited entered work)
    (hunvisited : unvisited ≤ exploration.states.length) {number : Nat} {items : ItemSet}
    (hitems : exploration.states[number]? = some items) {symbol : Symbol}
    (hsymbol : symbol ∈ items.nextSymbols grammar)
    (hwithin : (items.successor grammar symbol).Within grammar) :
    Follows (exploration.discover (items.successor grammar symbol) hwithin) unvisited
      (fun state other => entered state other ∨ state = number ∧ other = symbol)
      (work.follow grammar number items symbol) := by
  have hgrown := Exploration.prefix_discover exploration _ hwithin
  simp only [Worklist.follow, goto?_of_mem_nextSymbols hsymbol, h.states_eq]
  cases hnumber : work.numbers.get? (items.successor grammar symbol) with
  | some known =>
      -- the state is known, and the exploration stays as it is
      have hfound := h.number_iff.mp hnumber
      have hsame : exploration.discover (items.successor grammar symbol) hwithin = exploration :=
        dif_pos (List.mem_of_getElem? hfound)
      have hentered := h.enter List.prefix_rfl hitems hfound h.number_iff
      rwa [hsame, h.queue_eq]
  | none =>
      -- the state is new, gets the next number and joins the queue
      have hnew : items.successor grammar symbol ∉ exploration.states := fun hmem => by
        obtain ⟨place, hplace⟩ := List.mem_iff_getElem?.mp hmem
        rw [h.number_iff.mpr hplace] at hnumber
        cases hnumber
      have hstates : (exploration.discover (items.successor grammar symbol) hwithin).states =
          exploration.states ++ [items.successor grammar symbol] := by
        rw [Exploration.discover, dif_neg hnew]
      have hfound : (exploration.discover (items.successor grammar symbol) hwithin).states[
          exploration.states.length]? = some (items.successor grammar symbol) := by
        rw [hstates, List.getElem?_concat_length]
      have hnumbers : ∀ {other place},
          (work.numbers.insert (items.successor grammar symbol) exploration.states.length).get? other =
            some place ↔ (exploration.discover (items.successor grammar symbol) hwithin).states[place]? =
              some other := by
        intro other place
        rw [hstates, ← getElem?_concat_eq_some_iff hnew, SortedMap.get?_insert, ← h.number_iff]
        split <;> rfl
      have hentered := h.enter hgrown (getElem?_mono hgrown hitems) hfound hnumbers
      have hqueue : work.queue ++ [exploration.states.length] =
          List.range' unvisited (exploration.states.length + 1 - unvisited) := by
        rw [h.queue_eq, Nat.sub_add_comm hunvisited, List.range'_1_concat,
          Nat.add_sub_cancel' hunvisited]
      rw [hqueue]
      rwa [hstates, List.length_append, List.length_singleton] at hentered

/-! ## Rounds -/

theorem Follows.foldl (h : Follows exploration unvisited entered work)
    (hunvisited : unvisited ≤ exploration.states.length) {number : Nat} {items : ItemSet}
    (hitems : exploration.states[number]? = some items) (hwithin : items.Within grammar)
    {symbols : List Symbol} (hsymbols : ∀ symbol ∈ symbols, symbol ∈ items.nextSymbols grammar) :
    Follows (symbols.foldl (fun found symbol =>
        found.discover (items.successor grammar symbol) (ItemSet.within_successor symbol hwithin))
        exploration) unvisited
      (fun state other => entered state other ∨ state = number ∧ other ∈ symbols)
      (symbols.foldl (Worklist.follow grammar number items) work) := by
  induction symbols generalizing exploration entered work with
  | nil => simpa using h
  | cons symbol rest ih =>
      have hgrown := Exploration.prefix_discover exploration (items.successor grammar symbol)
        (ItemSet.within_successor symbol hwithin)
      have hfollow := h.follow hunvisited hitems (hsymbols symbol List.mem_cons_self)
        (ItemSet.within_successor symbol hwithin)
      have hrest := ih hfollow (Nat.le_trans hunvisited hgrown.length_le)
        (getElem?_mono hgrown hitems) fun other hother =>
          hsymbols other (List.mem_cons_of_mem _ hother)
      simpa only [List.foldl_cons, List.mem_cons, and_or_left, or_assoc] using hrest

private theorem round?_of_queue {number : Nat} {rest : List Nat} (hqueue : work.queue = number :: rest)
    {items : ItemSet} (hitems : work.states[number]? = some items) :
    round? grammar work = some ((items.nextSymbols grammar).toList.foldl
      (follow grammar number items) { work with queue := rest }) := by
  simp only [round?, hqueue, hitems, Option.map_some]

/-- The transitions that the visits of all states before a number enter. -/
def Visited (exploration : Exploration grammar) (number state : Nat) (symbol : Symbol) : Prop :=
  state < number ∧ ∃ items, exploration.states[state]? = some items ∧
    symbol ∈ items.nextSymbols grammar

/-- One more visited state enters the transitions from it. -/
private theorem visited_succ_iff {grown : Exploration grammar}
    (hgrown : exploration.states <+: grown.states) {number : Nat} {items : ItemSet}
    (hitems : exploration.states[number]? = some items) {state : Nat} {symbol : Symbol} :
    Visited grown (number + 1) state symbol ↔ Visited exploration number state symbol ∨
      state = number ∧ symbol ∈ items.nextSymbols grammar := by
  have hlt := (List.getElem?_eq_some_iff.mp hitems).1
  obtain ⟨more, hmore⟩ := hgrown
  constructor
  · rintro ⟨hstate, known, hknown, hsymbol⟩
    rw [← hmore, List.getElem?_append_left (by omega)] at hknown
    rcases Nat.lt_succ_iff_lt_or_eq.mp hstate with hbefore | rfl
    · exact .inl ⟨hbefore, known, hknown, hsymbol⟩
    · cases hitems.symm.trans hknown
      exact .inr ⟨rfl, hsymbol⟩
  · rintro (⟨hstate, known, hknown, hsymbol⟩ | ⟨rfl, hsymbol⟩)
    · exact ⟨by omega, known, getElem?_mono ⟨more, hmore⟩ hknown, hsymbol⟩
    · exact ⟨Nat.lt_succ_self _, items, getElem?_mono ⟨more, hmore⟩ hitems, hsymbol⟩

/-- A round visits the next state. -/
theorem Follows.round {number : Nat} (hlt : number < exploration.states.length)
    (hwithin : exploration.states[number].Within grammar)
    (h : Follows exploration number (Visited exploration number) work) :
    ∃ next, round? grammar work = some next ∧
      Follows (exploration.visit exploration.states[number] hwithin) (number + 1)
        (Visited (exploration.visit exploration.states[number] hwithin) (number + 1)) next := by
  have hitems := List.getElem?_eq_getElem hlt
  have hqueue : work.queue =
      number :: List.range' (number + 1) (exploration.states.length - (number + 1)) := by
    rw [h.queue_eq, ← List.range'_succ]
    congr 1
    omega
  refine ⟨_, round?_of_queue hqueue (by rw [h.states_eq, hitems]), ?_⟩
  have hpopped : Follows exploration (number + 1) (Visited exploration number)
      { work with queue := List.range' (number + 1) (exploration.states.length - (number + 1)) } :=
    { h with queue_eq := rfl }
  have hvisit := hpopped.foldl hlt hitems hwithin
    fun symbol (hsymbol : symbol ∈ (exploration.states[number].nextSymbols grammar).toList) => hsymbol
  have hentered : Visited (exploration.visit exploration.states[number] hwithin) (number + 1) =
      fun state other => Visited exploration number state other ∨
        state = number ∧ other ∈ (exploration.states[number].nextSymbols grammar).toList := by
    funext state other
    exact propext (visited_succ_iff (Exploration.prefix_visit exploration _ hwithin) hitems)
  rw [hentered]
  exact hvisit

theorem Follows.exists_ends (exploration : Exploration grammar) (number : Nat) {work : Worklist}
    (h : Follows exploration number (Visited exploration number) work) :
    ∃ final, Ends grammar work final ∧ ∃ visited,
      (exploration.exploreFrom number).states.length ≤ visited ∧
      Follows (exploration.exploreFrom number) visited
        (Visited (exploration.exploreFrom number) visited) final := by
  fun_induction exploration.exploreFrom number generalizing work with
  | case1 exploration number hlt ih =>
      obtain ⟨next, hround, hnext⟩ := h.round hlt (exploration.within _ (List.getElem_mem hlt))
      obtain ⟨final, hends, hfinal⟩ := ih hnext
      exact ⟨final, .round hround hends, hfinal⟩
  | case2 exploration number hge =>
      have hqueue : work.queue = [] := by
        rw [h.queue_eq, Nat.sub_eq_zero_of_le (Nat.le_of_not_lt hge), List.range'_zero]
      exact ⟨work, .done hqueue, number, Nat.le_of_not_lt hge, h⟩

/-! ## The automaton -/

theorem follows_start {rule : Nat} (hrule : rule < grammar.productions.length) :
    Follows (Exploration.start grammar rule hrule) 0
      (Visited (Exploration.start grammar rule hrule) 0) (start grammar rule) where
  states_eq := rfl
  number_iff {items number} := by
    show _ ↔ ([] ++ [ItemSet.closure grammar [.initial rule]])[number]? = some items
    rw [← getElem?_concat_eq_some_iff List.not_mem_nil, start, SortedMap.get?_insert]
    simp
  queue_eq := rfl
  exists_target state symbol := iff_of_false (by simp [start]) fun h => Nat.not_lt_zero _ h.1
  leads h := by simp [start] at h

/-- What a worklist holds after all visits are the transitions of the automaton. -/
theorem Follows.transitions_eq {grammar : Grammar} {visited : Nat} {final : Worklist}
    {exploration : Exploration grammar.augmented}
    (hstates : exploration.states = (Automaton.ofGrammar grammar).states)
    (hvisited : exploration.states.length ≤ visited)
    (h : Follows exploration visited (Visited exploration visited) final) :
    final.transitions = (Automaton.ofGrammar grammar).transitions := by
  apply SortedMap.ext_get?
  rintro ⟨state, symbol⟩
  apply Option.ext
  intro target
  show _ ↔ (Automaton.ofGrammar grammar).transition? state symbol = some target
  rw [Automaton.transition?_eq_some_iff, ← hstates]
  simp only [idxOf?_eq_some_iff]
  constructor
  · intro hfound
    obtain ⟨_, items, hitems, hsymbol⟩ := (h.exists_target state symbol).mp ⟨target, hfound⟩
    obtain ⟨known, hknown, hleads⟩ := h.leads hfound
    cases hitems.symm.trans hknown
    exact ⟨items, hitems, hsymbol, hleads⟩
  · rintro ⟨items, hitems, hsymbol, hleads⟩
    have hlt := (List.getElem?_eq_some_iff.mp hitems).1
    obtain ⟨found, hfound⟩ := (h.exists_target state symbol).mpr
      ⟨Nat.lt_of_lt_of_le hlt hvisited, items, hitems, hsymbol⟩
    obtain ⟨known, hknown, hleads'⟩ := h.leads hfound
    cases hitems.symm.trans hknown
    -- the states are distinct, so both targets are the place of one state
    rw [← idxOf?_eq_some_iff] at hleads hleads'
    rw [hfound, ← hleads, hleads']

/-- The rounds from the start state on end with the states and transitions of the automaton. -/
theorem exists_ends (grammar : Grammar) :
    ∃ final, Ends grammar.augmented (start grammar.augmented grammar.startRule) final ∧
      final.states = (Automaton.ofGrammar grammar).states ∧
      final.transitions = (Automaton.ofGrammar grammar).transitions := by
  have hrule : grammar.startRule < grammar.augmented.productions.length := by
    simp [Grammar.augmented, Grammar.startRule]
  obtain ⟨final, hends, visited, hvisited, hfinal⟩ := (follows_start hrule).exists_ends
  exact ⟨final, hends, hfinal.states_eq, hfinal.transitions_eq rfl hvisited⟩

end Worklist

end TableParsing.ShiftReduce
