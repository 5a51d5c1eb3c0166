import Mathlib.Order.Bounds.Basic
import TableParsing.Proofs.ShiftReduce.Items

/-!
# Closing a list of items

A closure can be computed with a stack.  An item that was not found before joins
the set of found items and is put on the stack; the item on top is taken off it
and what it predicts is added, until the stack is empty (`Agenda.Ends`).

## Strategy

`Agenda.Reflects` is the invariant of the loop: the given items are among the
found ones, all found items belong to the closure, and each of them waits on the
stack or has all that it predicts among the found items.  When nothing waits, the
found items are closed under prediction, so that they are the whole closure.
The loop ends because an item that is added on the way is the first one of a rule
that was missing before: `Agenda.work` counts a missing rule twice and a waiting
item once, and every round takes one off (`Agenda.work_addAll_le`).

That a closure is the least set with what it is asked for (`isLeast_closure`) gives
the laws of a closure operator without another look at the loop.
-/

namespace TableParsing.ShiftReduce

variable {grammar : Grammar}

/-- The items found so far and, the next one first, those whose predictions are to be added. -/
structure Agenda where
  found : ItemSet
  waiting : List Item
deriving DecidableEq

namespace Agenda

/-! ## The loop -/

/-- Adds an item, unless it was found before. -/
def add (agenda : Agenda) (item : Item) : Agenda :=
  if item ∈ agenda.found then agenda
  else ⟨agenda.found.insert item, item :: agenda.waiting⟩

def addAll (agenda : Agenda) (items : List Item) : Agenda := items.foldl add agenda

/-- The agenda of the items to be closed. -/
def ofItems (items : List Item) : Agenda := addAll ⟨∅, []⟩ items

/-- What a dot in the body of a production predicts: the items at the beginning of the productions of
the nonterminal behind it. -/
def predictions (grammar : Grammar) (production : Production) (dot : Nat) : List Item :=
  match production.body[dot]? with
  | some symbol =>
    if symbol.isNonterminal then (grammar.rulesFor symbol).map Item.initial else []
  | none => []

/-- The predictions of the item on top of the stack are added, for which its production has to be
found, until the stack is empty; then the found items are the result. -/
inductive Ends (grammar : Grammar) : Agenda → ItemSet → Prop
  | done {found : ItemSet} : Ends grammar ⟨found, []⟩ found
  | round {found result : ItemSet} {item : Item} {rest : List Item} {production : Production}
      (hproduction : grammar.production? item.rule = some production)
      (later : Ends grammar (addAll ⟨found, rest⟩ (predictions grammar production item.dot)) result) :
      Ends grammar ⟨found, item :: rest⟩ result

variable {agenda : Agenda}

theorem Ends.unique {first second : ItemSet} (hfirst : Ends grammar agenda first)
    (hsecond : Ends grammar agenda second) : first = second := by
  induction hfirst with
  | done =>
      cases hsecond
      rfl
  | round hproduction _ ih =>
      cases hsecond with
      | round hproduction' later =>
          rw [hproduction] at hproduction'
          cases hproduction'
          exact ih later

theorem mem_predictions {item other : Item} {production : Production}
    (hproduction : grammar.production? item.rule = some production) :
    other ∈ predictions grammar production item.dot ↔
      ∃ symbol, item.next? grammar = some symbol ∧
        ∃ rule ∈ grammar.rulesFor symbol, other = .initial rule := by
  have hnext : item.next? grammar = production.body[item.dot]? := by
    rw [Item.next?, Grammar.body_of_production? hproduction]
  unfold predictions
  rw [hnext]
  cases hsymbol : production.body[item.dot]? with
  | none => simp
  | some symbol =>
      by_cases hkind : symbol.isNonterminal = true
      · simp [hkind, eq_comm]
      · -- only nonterminals have rules
        have hnone : ∀ rule, rule ∉ grammar.rulesFor symbol := fun rule hrule => by
          obtain ⟨own, hown, hlhs⟩ := Grammar.mem_rulesFor.mp hrule
          exact hkind (hlhs ▸ Grammar.lhs_isNonterminal (Grammar.mem_of_production? hown))
        simp [hkind, hnone]

/-! ## Adding items -/

private theorem mem_found_add {item other : Item} :
    other ∈ (agenda.add item).found ↔ other ∈ agenda.found ∨ other = item := by
  unfold add
  split
  · rename_i hknown
    simp only [iff_self_or]
    rintro rfl
    exact hknown
  · simp [or_comm]

/-- What waits was waiting before or has just been found. -/
private theorem mem_waiting_add {item other : Item} :
    other ∈ (agenda.add item).waiting ↔
      other ∈ agenda.waiting ∨ other = item ∧ other ∉ agenda.found := by
  unfold add
  split
  · rename_i hknown
    simp only [iff_self_or, and_imp]
    rintro rfl hnew
    exact absurd hknown hnew
  · rename_i hnew
    simp only [List.mem_cons]
    grind

theorem mem_found_addAll {items : List Item} {other : Item} :
    other ∈ (agenda.addAll items).found ↔ other ∈ agenda.found ∨ other ∈ items := by
  unfold addAll
  induction items generalizing agenda with
  | nil => simp
  | cons item rest ih => simp [ih, mem_found_add, or_assoc]

theorem mem_waiting_addAll {items : List Item} {other : Item} :
    other ∈ (agenda.addAll items).waiting ↔
      other ∈ agenda.waiting ∨ other ∈ items ∧ other ∉ agenda.found := by
  unfold addAll
  induction items generalizing agenda with
  | nil => simp
  | cons item rest ih =>
      rw [List.foldl_cons, ih, mem_waiting_add, mem_found_add, List.mem_cons]
      grind

/-! ## The measure -/

/-- How much is left to do at most: the first item of a rule may come to be found, which puts it on
the stack, and every item on the stack is taken off it. -/
def work (grammar : Grammar) (agenda : Agenda) : Nat :=
  2 * ItemSet.missing grammar agenda.found + agenda.waiting.length

private theorem missing_insert_lt {items : ItemSet} {rule : Nat} (hrule : rule < grammar.productions.length)
    (hnew : Item.initial rule ∉ items) :
    ItemSet.missing grammar (items.insert (.initial rule)) < ItemSet.missing grammar items := by
  refine ItemSet.countP_lt_of_mem ?_ (List.mem_range.mpr hrule) ?_ ?_
  · simp only [decide_eq_true_eq, SortedSet.mem_insert, not_or]
    exact fun other hother => hother.2
  · simp [hnew]
  · simp

private theorem work_add_initial_le {rule : Nat} (hrule : rule < grammar.productions.length) :
    (agenda.add (.initial rule)).work grammar ≤ agenda.work grammar := by
  unfold add
  split
  · exact Nat.le_refl _
  · rename_i hnew
    have hfewer := missing_insert_lt hrule hnew
    simp only [work, List.length_cons]
    omega

private theorem work_addAll_le {items : List Item}
    (hitems : ∀ item ∈ items, ∃ rule < grammar.productions.length, item = .initial rule) :
    (agenda.addAll items).work grammar ≤ agenda.work grammar := by
  unfold addAll
  induction items generalizing agenda with
  | nil => exact Nat.le_refl _
  | cons item rest ih =>
      obtain ⟨rule, hrule, rfl⟩ := hitems item List.mem_cons_self
      calc (rest.foldl add (agenda.add (.initial rule))).work grammar
          ≤ (agenda.add (.initial rule)).work grammar :=
            ih fun other hother => hitems other (List.mem_cons_of_mem _ hother)
        _ ≤ agenda.work grammar := work_add_initial_le hrule

/-! ## The invariant -/

/-- The found items are part of the way from the given items to their closure. -/
structure Reflects (grammar : Grammar) (given : List Item) (agenda : Agenda) : Prop where
  found_given : ∀ item ∈ given, item ∈ agenda.found
  mem_closure : ∀ item ∈ agenda.found, item ∈ ItemSet.closure grammar given
  found_waiting : ∀ item ∈ agenda.waiting, item ∈ agenda.found
  /-- Every found item waits, or all that it predicts was found. -/
  due_or_expanded : ∀ item ∈ agenda.found, item ∈ agenda.waiting ∨
    ∀ symbol, item.next? grammar = some symbol → ∀ rule ∈ grammar.rulesFor symbol,
      .initial rule ∈ agenda.found

variable {given : List Item}

theorem reflects_ofItems (grammar : Grammar) (given : List Item) :
    Reflects grammar given (ofItems given) where
  found_given item hitem := mem_found_addAll.mpr (.inr hitem)
  mem_closure item hitem := by
    rcases mem_found_addAll.mp hitem with hnone | hgiven
    · exact absurd hnone (SortedSet.not_mem_empty item)
    · exact ItemSet.mem_closure hgiven
  found_waiting item hitem := by
    rcases mem_waiting_addAll.mp hitem with hnone | ⟨hgiven, _⟩
    · cases hnone
    · exact mem_found_addAll.mpr (.inr hgiven)
  due_or_expanded item hitem := by
    rcases mem_found_addAll.mp hitem with hnone | hgiven
    · exact absurd hnone (SortedSet.not_mem_empty item)
    · exact .inl (mem_waiting_addAll.mpr (.inr ⟨hgiven, SortedSet.not_mem_empty item⟩))

/-- A round takes an item off the stack when all that it predicts has been found. -/
theorem Reflects.round {found : ItemSet} {item : Item} {rest : List Item} {production : Production}
    (h : Reflects grammar given ⟨found, item :: rest⟩)
    (hproduction : grammar.production? item.rule = some production) :
    Reflects grammar given (addAll ⟨found, rest⟩ (predictions grammar production item.dot)) where
  found_given other hother := mem_found_addAll.mpr (.inl (h.found_given other hother))
  mem_closure other hother := by
    rcases mem_found_addAll.mp hother with hold | hnew
    · exact h.mem_closure other hold
    · obtain ⟨symbol, hnext, rule, hrule, rfl⟩ := (mem_predictions hproduction).mp hnew
      have hitem := h.mem_closure item (h.found_waiting item List.mem_cons_self)
      exact ItemSet.closed_closure given item hitem symbol hnext rule hrule
  found_waiting other hother := by
    rcases mem_waiting_addAll.mp hother with hold | ⟨hnew, _⟩
    · exact mem_found_addAll.mpr (.inl (h.found_waiting other (List.mem_cons_of_mem _ hold)))
    · exact mem_found_addAll.mpr (.inr hnew)
  due_or_expanded other hother := by
    by_cases hold : other ∈ found
    · by_cases hsame : other = item
      · subst hsame
        refine .inr fun symbol hnext rule hrule => mem_found_addAll.mpr (.inr ?_)
        exact (mem_predictions hproduction).mpr ⟨symbol, hnext, rule, hrule, rfl⟩
      · rcases h.due_or_expanded other hold with hwaiting | hexpanded
        · have hrest := (List.mem_cons.mp hwaiting).resolve_left hsame
          exact .inl (mem_waiting_addAll.mpr (.inl hrest))
        · exact .inr fun symbol hnext rule hrule =>
            mem_found_addAll.mpr (.inl (hexpanded symbol hnext rule hrule))
    · have hnew := (mem_found_addAll.mp hother).resolve_left hold
      exact .inl (mem_waiting_addAll.mpr (.inr ⟨hnew, hold⟩))

/-- When nothing waits, the whole closure has been found. -/
theorem Reflects.found_eq {found : ItemSet} (h : Reflects grammar given ⟨found, []⟩) :
    found = ItemSet.closure grammar given := by
  apply SortedSet.ext_mem
  intro item
  refine ⟨h.mem_closure item, ItemSet.closure_induct h.found_given ?_ item⟩
  intro predicting symbol rule hpredicting hnext hrule
  exact (h.due_or_expanded predicting hpredicting).resolve_left List.not_mem_nil symbol hnext rule
    hrule

/-- The loop ends with the closure, if there is a production for each of the given items. -/
theorem Reflects.ends (hgiven : ∀ item ∈ given, item.rule < grammar.productions.length)
    (h : Reflects grammar given agenda) : Ends grammar agenda (ItemSet.closure grammar given) := by
  have hrange : ∀ item ∈ ItemSet.closure grammar given, item.rule < grammar.productions.length :=
    ItemSet.closure_induct hgiven fun _ _ _ _ _ hrule => grammar.lt_of_mem_rulesFor hrule
  induction hwork : agenda.work grammar using Nat.strongRecOn generalizing agenda with
  | ind bound ih =>
      obtain ⟨found, waiting⟩ := agenda
      cases waiting with
      | nil =>
          rw [← h.found_eq]
          exact .done
      | cons item rest =>
          have hitem := hrange item (h.mem_closure item (h.found_waiting item List.mem_cons_self))
          have hproduction : grammar.production? item.rule = some grammar.productions[item.rule] :=
            List.getElem?_eq_getElem hitem
          have hinitial : ∀ other ∈ predictions grammar grammar.productions[item.rule] item.dot,
              ∃ rule < grammar.productions.length, other = .initial rule := by
            intro other hother
            obtain ⟨_, _, rule, hrule, rfl⟩ := (mem_predictions hproduction).mp hother
            exact ⟨rule, grammar.lt_of_mem_rulesFor hrule, rfl⟩
          have hless : (addAll ⟨found, rest⟩ (predictions grammar grammar.productions[item.rule]
              item.dot)).work grammar < bound := by
            have hadded : (addAll ⟨found, rest⟩ _).work grammar ≤ work grammar ⟨found, rest⟩ :=
              work_addAll_le hinitial
            simp only [work, List.length_cons] at hadded hwork ⊢
            omega
          exact .round hproduction (ih _ hless (h.round hproduction) rfl)

end Agenda

namespace ItemSet

/-! ## The least closed set -/

/-- A set holds given items and, with every item that has a nonterminal behind its dot, the items at
the beginning of all productions of that nonterminal. -/
structure Encloses (grammar : Grammar) (given members : Set Item) : Prop where
  mem_given : ∀ item ∈ given, item ∈ members
  mem_predicted : ∀ item ∈ members, ∀ symbol, item.next? grammar = some symbol →
    symbol.isNonterminal = true → ∀ rule production, grammar.production? rule = some production →
      production.lhs = symbol → .initial rule ∈ members

theorem encloses_closure (items : List Item) :
    Encloses grammar {item | item ∈ items} {item | item ∈ closure grammar items} where
  mem_given _ hitem := mem_closure hitem
  mem_predicted item hitem symbol hnext _ rule production hproduction hlhs :=
    closed_closure items item hitem symbol hnext rule
      (Grammar.mem_rulesFor.mpr ⟨production, hproduction, hlhs⟩)

theorem Encloses.mem_of_mem_closure {items : List Item} {members : Set Item}
    (h : Encloses grammar {item | item ∈ items} members) :
    ∀ item ∈ closure grammar items, item ∈ members := by
  apply closure_induct h.mem_given
  intro item symbol rule hitem hnext hrule
  obtain ⟨production, hproduction, hlhs⟩ := Grammar.mem_rulesFor.mp hrule
  have hkind : symbol.isNonterminal = true :=
    hlhs ▸ Grammar.lhs_isNonterminal (Grammar.mem_of_production? hproduction)
  exact h.mem_predicted item hitem symbol hnext hkind rule production hproduction hlhs

theorem isLeast_closure (grammar : Grammar) (items : List Item) :
    IsLeast {members | Encloses grammar {item | item ∈ items} members}
      {item | item ∈ closure grammar items} :=
  ⟨encloses_closure items, fun _ h => Encloses.mem_of_mem_closure h⟩

/-! ## The laws of a closure operator -/

theorem closure_mono {items items' : List Item} (h : ∀ item ∈ items, item ∈ items') :
    ∀ item ∈ closure grammar items, item ∈ closure grammar items' :=
  closure_induct (fun item hitem => mem_closure (h item hitem))
    fun item symbol rule hitem hnext hrule => closed_closure items' item hitem symbol hnext rule hrule

theorem closure_closure (items : List Item) :
    closure grammar (closure grammar items).toList = closure grammar items := by
  apply SortedSet.ext_mem
  intro item
  constructor
  · revert item
    exact closure_induct (fun item hitem => hitem)
      fun item symbol rule hitem hnext hrule => closed_closure items item hitem symbol hnext rule hrule
  · exact fun hitem => mem_closure hitem

theorem closure_append (items items' : List Item) :
    closure grammar (items ++ items') = closure grammar items ∪ closure grammar items' := by
  apply SortedSet.ext_mem
  intro item
  rw [SortedSet.mem_union]
  constructor
  · revert item
    apply closure_induct
    · intro item hitem
      exact (List.mem_append.mp hitem).imp mem_closure mem_closure
    · intro item symbol rule hitem hnext hrule
      exact hitem.imp (fun h => closed_closure items item h symbol hnext rule hrule)
        fun h => closed_closure items' item h symbol hnext rule hrule
  · intro h
    exact h.elim (closure_mono (fun _ => List.mem_append_left _) item)
      (closure_mono (fun _ => List.mem_append_right _) item)

/-! ## Moving the dot -/

theorem goto?_eq_none_iff {items : ItemSet} {symbol : Symbol} :
    items.goto? grammar symbol = none ↔ ∀ item ∈ items, item.next? grammar ≠ some symbol := by
  unfold goto?
  split
  · rename_i hempty
    simp only [true_iff]
    intro item hitem hnext
    have hmoved := mem_kernel.mpr ⟨item, hitem, hnext, rfl⟩
    rw [List.isEmpty_iff.mp hempty] at hmoved
    cases hmoved
  · rename_i hfilled
    simp only [reduceCtorEq, false_iff, not_forall, ne_eq, not_not]
    obtain ⟨moved, hmoved⟩ := List.exists_mem_of_ne_nil _ (by simpa using hfilled)
    obtain ⟨item, hitem, hnext, _⟩ := mem_kernel.mp hmoved
    exact ⟨item, hitem, hnext⟩

theorem goto?_eq_closure {items : ItemSet} {symbol : Symbol} {moved : List Item} (hsome : moved ≠ [])
    (h : ∀ item, item ∈ moved ↔
      ∃ before ∈ items, before.next? grammar = some symbol ∧ item = before.advanced) :
    items.goto? grammar symbol = some (closure grammar moved) := by
  have hkernel : ∀ item, item ∈ kernel grammar items symbol ↔ item ∈ moved := fun item => by
    rw [mem_kernel, h]
  obtain ⟨first, hfirst⟩ := List.exists_mem_of_ne_nil moved hsome
  have hfilled : (kernel grammar items symbol).isEmpty = false :=
    List.isEmpty_eq_false_iff_exists_mem.mpr ⟨first, (hkernel first).mpr hfirst⟩
  rw [goto?, hfilled, successor, closure_congr hkernel]
  rfl

/-- For items with productions of the grammar, wherever their dots stand, the loop that closes them
ends, and its result is their closure.  The closure is the least set that encloses them, and so it
depends on which items there are only, grows with them, is closed itself, and distributes over
unions.  A symbol leads nowhere if and only if it stands behind no dot, and to the closure of the
advanced items otherwise. -/
theorem closure_exact (grammar : Grammar) :
    (∀ items : List Item, (∀ item ∈ items, item.rule < grammar.productions.length) →
      ∀ result, Agenda.Ends grammar (.ofItems items) result ↔ result = closure grammar items) ∧
    (∀ items : List Item, IsLeast {members | Encloses grammar {item | item ∈ items} members}
      {item | item ∈ closure grammar items}) ∧
    (∀ items items' : List Item, (∀ item, item ∈ items ↔ item ∈ items') →
      closure grammar items = closure grammar items') ∧
    (∀ items items' : List Item, (∀ item ∈ items, item ∈ items') →
      ∀ item ∈ closure grammar items, item ∈ closure grammar items') ∧
    (∀ items : List Item,
      closure grammar (closure grammar items).toList = closure grammar items) ∧
    (∀ items items' : List Item,
      closure grammar (items ++ items') = closure grammar items ∪ closure grammar items') ∧
    ∀ (state : ItemSet) (symbol : Symbol),
      (state.goto? grammar symbol = none ↔ ∀ item ∈ state, item.next? grammar ≠ some symbol) ∧
      ∀ moved : List Item, moved ≠ [] → (∀ item, item ∈ moved ↔
          ∃ before ∈ state, before.next? grammar = some symbol ∧ item = before.advanced) →
        state.goto? grammar symbol = some (closure grammar moved) := by
  refine ⟨fun items hitems result => ?_, isLeast_closure grammar, fun _ _ => closure_congr,
    fun _ _ => closure_mono, closure_closure, closure_append,
    fun state symbol => ⟨goto?_eq_none_iff, fun moved => goto?_eq_closure⟩⟩
  have hends := (Agenda.reflects_ofItems grammar items).ends hitems
  constructor
  · exact fun hresult => hresult.unique hends
  · rintro rfl
    exact hends

/-- Two nonterminals that begin each other's bodies, and one of them also vanishes. -/
def tangled : Grammar where
  start := .nonterminal "S"
  productions := [
    ⟨.nonterminal "S", [.nonterminal "A", .nonterminal "S", .terminal "b"]⟩,
    ⟨.nonterminal "S", [.epsilon]⟩,
    ⟨.nonterminal "A", [.nonterminal "S", .nonterminal "A"]⟩,
    ⟨.nonterminal "A", [.terminal "a"]⟩]
  wellFormed := Grammar.wellFormed_of_fault?_eq_none (by decide)

/-- In `tangled` an item with its dot behind the `A` of the first body predicts all four rules; one
with its dot far behind its body predicts nothing.  From their closure `S` leads on by the first body
and by the third. -/
theorem closure_exact_tangled :
    (∀ item ∈ [(⟨3, 5⟩ : Item), ⟨0, 1⟩, ⟨3, 5⟩], item.rule < tangled.productions.length) ∧
      Agenda.Ends tangled (.ofItems [⟨3, 5⟩, ⟨0, 1⟩, ⟨3, 5⟩])
        (.ofList [⟨0, 0⟩, ⟨0, 1⟩, ⟨1, 0⟩, ⟨2, 0⟩, ⟨3, 0⟩, ⟨3, 5⟩]) ∧
      closure tangled [⟨3, 5⟩, ⟨0, 1⟩, ⟨3, 5⟩] = closure tangled [⟨0, 1⟩, ⟨3, 5⟩] ∧
      ⟨2, 0⟩ ∈ closure tangled [⟨3, 5⟩, ⟨0, 1⟩] ∧
      (closure tangled [⟨0, 1⟩]).goto? tangled (.nonterminal "S") =
        some (closure tangled [⟨0, 2⟩, ⟨2, 1⟩]) := by
  obtain ⟨hends, _, hcongr, hmono, _, _, hgoto⟩ := closure_exact tangled
  have hrange : ∀ item ∈ [(⟨3, 5⟩ : Item), ⟨0, 1⟩, ⟨3, 5⟩],
      item.rule < tangled.productions.length := by decide
  have hkernel : kernel tangled (closure tangled [⟨0, 1⟩]) (.nonterminal "S") =
      [⟨0, 2⟩, ⟨2, 1⟩] := by decide +kernel
  refine ⟨hrange, (hends _ hrange _).mpr (by decide +kernel), hcongr _ _ (by simp [or_comm]), ?_, ?_⟩
  · exact hmono [⟨0, 1⟩] _ (by simp) _ (by decide +kernel)
  · exact (hgoto _ _).2 _ (by simp) fun item => hkernel ▸ mem_kernel

end ItemSet

end TableParsing.ShiftReduce
