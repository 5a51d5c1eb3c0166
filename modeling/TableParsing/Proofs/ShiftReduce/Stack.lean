import TableParsing.Proofs.ShiftReduce.Actions

/-!
# Stacks that follow the automaton

Every stack of a run is `Linked`: each frame holds the state that its symbol
leads to from the state below it.  On such a stack the items of the top state
tell what lies below (`Linked.exists_origin`): the symbols before the dot of an
item are spelled by the uppermost frames, and where these began the item's rule
was predicted.  The item that everything begins with is predicted nowhere, so it
is found below the bottom of the stack only (`Linked.initial_cases`).
-/

namespace TableParsing.ShiftReduce

variable {grammar : Grammar}

@[simp] theorem topState_nil : topState [] = 0 := rfl

@[simp] theorem topState_cons (frame : Frame) (below : List Frame) :
    topState (frame :: below) = frame.state := rfl

/-- The symbols of a stack in the order in which they were read. -/
def spelled (frames : List Frame) : List Symbol := (frames.map Frame.symbol).reverse

@[simp] theorem spelled_cons (frame : Frame) (below : List Frame) :
    spelled (frame :: below) = spelled below ++ [frame.symbol] := by
  simp [spelled]

theorem spelled_append (upper lower : List Frame) :
    spelled (upper ++ lower) = spelled lower ++ spelled upper := by
  simp [spelled]

theorem length_spelled (frames : List Frame) : (spelled frames).length = frames.length := by
  simp [spelled]

/-- Each frame holds the state that its symbol leads to from the state below. -/
def Linked (automaton : Automaton) : List Frame → Prop
  | [] => True
  | frame :: below =>
    automaton.transition? (topState below) frame.symbol = some frame.state ∧
      Linked automaton below

theorem linked_nil {automaton : Automaton} : Linked automaton [] := trivial

theorem Linked.of_append {automaton : Automaton} {upper lower : List Frame}
    (h : Linked automaton (upper ++ lower)) : Linked automaton lower := by
  induction upper with
  | nil => exact h
  | cons frame rest ih => exact ih h.2

/-- The symbols before the dot of an item are spelled on top of the stack, above a state in which
the item's rule was predicted. -/
theorem Linked.exists_origin {frames : List Frame}
    (h : Linked (Automaton.ofGrammar grammar) frames) {item : Item}
    (hitem : item ∈ (Automaton.ofGrammar grammar).itemsAt (topState frames)) :
    ∃ upper lower, frames = upper ++ lower ∧ spelled upper = item.before grammar.augmented ∧
      .initial item.rule ∈ (Automaton.ofGrammar grammar).itemsAt (topState lower) := by
  induction frames generalizing item with
  | nil =>
      have hinitial := Automaton.eq_initial_of_mem_itemsAt_zero hitem
      exact ⟨[], [], rfl, by rw [hinitial]; rfl, hinitial ▸ hitem⟩
  | cons frame below ih =>
      -- the top frame's symbol is the last one before the dot, unless the rule begins here
      rcases Automaton.mem_itemsAt_cases h.1 hitem with
        ⟨moved, hmoved, hnext, rfl⟩ | ⟨_, _, _, _, rule, _, rfl⟩
      · obtain ⟨upper, lower, rfl, hspelled, hinitial⟩ := ih h.2 hmoved
        refine ⟨frame :: upper, lower, rfl, ?_, hinitial⟩
        rw [spelled_cons, hspelled, Item.before_advanced hnext]
      · exact ⟨[], frame :: below, rfl, rfl, hitem⟩

/-- An item at the beginning of a rule is the one that everything begins with, or it is predicted in
its state. -/
theorem Linked.initial_cases {frames : List Frame}
    (h : Linked (Automaton.ofGrammar grammar) frames) {rule : Nat}
    (hitem : .initial rule ∈ (Automaton.ofGrammar grammar).itemsAt (topState frames)) :
    rule = grammar.startRule ∧ frames = [] ∨
      ∃ predicting ∈ (Automaton.ofGrammar grammar).itemsAt (topState frames), ∃ production,
        predicting.next? grammar.augmented = some production.lhs ∧
          grammar.production? rule = some production := by
  have hpredicted : (∃ predicting ∈ (Automaton.ofGrammar grammar).itemsAt (topState frames),
      ∃ next, predicting.next? grammar.augmented = some next ∧
        ∃ other ∈ grammar.augmented.rulesFor next, Item.initial rule = .initial other) →
      ∃ predicting ∈ (Automaton.ofGrammar grammar).itemsAt (topState frames), ∃ production,
        predicting.next? grammar.augmented = some production.lhs ∧
          grammar.production? rule = some production := by
    rintro ⟨predicting, hpredicting, next, hnext, other, hother, hsame⟩
    cases hsame
    obtain ⟨production, hproduction, rfl⟩ := Automaton.exists_production_of_predicted hnext hother
    exact ⟨predicting, hpredicting, production, hnext, hproduction⟩
  cases frames with
  | nil =>
      rw [topState_nil, Automaton.itemsAt_zero] at hitem hpredicted ⊢
      rcases ItemSet.mem_closure_cases hitem with hgiven | hother
      · cases List.mem_singleton.mp hgiven
        exact .inl ⟨rfl, rfl⟩
      · exact .inr (hpredicted hother)
  | cons frame below =>
      rcases Automaton.mem_itemsAt_cases h.1 hitem with ⟨moved, _, _, hmoved⟩ | hother
      · cases hmoved
      · exact .inr (hpredicted hother)

/-- Where a rule was predicted there is a transition over its left-hand side. -/
theorem Linked.exists_transition?_lhs {frames : List Frame}
    (h : Linked (Automaton.ofGrammar grammar) frames) {rule : Nat} {production : Production}
    (hproduction : grammar.production? rule = some production)
    (hitem : .initial rule ∈ (Automaton.ofGrammar grammar).itemsAt (topState frames)) :
    ∃ target, (Automaton.ofGrammar grammar).transition? (topState frames) production.lhs =
      some target := by
  rcases h.initial_cases hitem with ⟨hrule, _⟩ | ⟨predicting, hpredicting, other, hnext, hother⟩
  · exact absurd hrule (Grammar.ne_startRule_of_production? hproduction)
  · cases hproduction.symm.trans hother
    obtain ⟨target, htarget, _⟩ := Automaton.exists_transition? hpredicting hnext
    exact ⟨target, htarget⟩

/-- The completed start item stands on top of a stack that holds the start symbol alone. -/
theorem Linked.exists_eq_of_accepting {frames : List Frame}
    (h : Linked (Automaton.ofGrammar grammar) frames) {item : Item}
    (hitem : item ∈ (Automaton.ofGrammar grammar).itemsAt (topState frames))
    (hnext : item.next? grammar.augmented = none) (hrule : item.rule = grammar.startRule) :
    ∃ state, frames = [⟨grammar.start, state⟩] := by
  obtain ⟨upper, lower, rfl, hspelled, hinitial⟩ := h.exists_origin hitem
  rw [Item.before_of_next?_eq_none hnext, hrule, Grammar.augmented_body_startRule] at hspelled
  rw [hrule] at hinitial
  have hlower : lower = [] := by
    rcases h.of_append.initial_cases hinitial with ⟨_, hnil⟩ | ⟨_, _, production, _, hproduction⟩
    · exact hnil
    · exact absurd rfl (Grammar.ne_startRule_of_production? hproduction)
  match upper, hspelled with
  | [], hspelled => cases hspelled
  | [⟨symbol, state⟩], hspelled =>
    cases hspelled
    exact ⟨state, by rw [hlower]; rfl⟩
  | first :: second :: rest, hspelled =>
    have hlength := congrArg List.length hspelled
    rw [length_spelled] at hlength
    simp at hlength

end TableParsing.ShiftReduce
