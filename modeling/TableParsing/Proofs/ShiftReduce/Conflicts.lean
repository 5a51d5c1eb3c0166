import Mathlib.Data.List.Basic
import TableParsing.Proofs.ShiftReduce.Actions
import TableParsing.Proofs.ShiftReduce.Collection

/-!
# The shift-reduce table and its first conflict

The items of a state demand actions under lookahead symbols (`Table.DemandOf`).
`Table.ofFollow_exact` says, for any FOLLOW sets, what comes of the demands of a
grammar's automaton:

* a table is made if and only if no state demands two actions under one symbol, and then
  it holds exactly the demands, and a goto for each transition over a nonterminal;
* otherwise the answer is the first disagreement: a demand has a site, by state, item and
  lookahead symbol, and the conflict is found at the first site whose demand disagrees
  with that of an earlier item of the state;
* the conflict tells the two actions apart, whichever they are (`Table.Reports`): two
  shifts over one symbol lead to one state, and under the end marker nothing is shifted,
  so one of the two is always a reduction.
-/

namespace TableParsing.ShiftReduce.Table

open Std

/-! ## Sites and disagreements -/

/-- The site of a demand in the order in which demands are entered. -/
structure Site where
  state : Nat
  item : Item
  lookahead : Symbol
deriving DecidableEq, Repr

namespace Site

/-- Sites are ordered by state, then by item, then by symbol. -/
instance : Ord Site :=
  ⟨compareLex (compareOn state) (compareLex (compareOn item) (compareOn lookahead))⟩

instance : TransOrd Site :=
  inferInstanceAs
    (TransCmp (compareLex (compareOn state) (compareLex (compareOn item) (compareOn lookahead))))

theorem compare_eq_lt {first second : Site} : compare first second = .lt ↔
    first.state < second.state ∨ first.state = second.state ∧
      (compare first.item second.item = .lt ∨
        first.item = second.item ∧ compare first.lookahead second.lookahead = .lt) := by
  show (compare first.state second.state).then ((compare first.item second.item).then
    (compare first.lookahead second.lookahead)) = .lt ↔ _
  simp only [Ordering.then_eq_lt, Nat.compare_eq_lt, LawfulEqOrd.compare_eq_iff_eq]

end Site

/-- The item at a site, which is one of the state's, demands an action there. -/
def DemandAt (automaton : Automaton) (follow : FollowSets) (site : Site) (action : Action) : Prop :=
  site.item ∈ automaton.itemsAt site.state ∧
    DemandOf automaton follow site.state site.item site.lookahead action

/-- At a site another action is demanded than an earlier item of the state demands. -/
structure DisagreesAt (automaton : Automaton) (follow : FollowSets) (site : Site)
    (earlier later : Action) : Prop where
  later_demand : DemandAt automaton follow site later
  earlier_demand : ∃ item, compare item site.item = .lt ∧
    DemandAt automaton follow ⟨site.state, item, site.lookahead⟩ earlier
  ne : earlier ≠ later

/-- A site is the first one of a disagreement. -/
structure FirstDisagreement (automaton : Automaton) (follow : FollowSets) (site : Site)
    (earlier later : Action) : Prop extends DisagreesAt automaton follow site earlier later where
  first : ∀ {other : Site} {earlier' later' : Action},
    DisagreesAt automaton follow other earlier' later' → compare other site ≠ .lt

/-- What a conflict reports about an earlier and a later action. -/
inductive Reports (grammar : Grammar) (state : Nat) :
    Symbol → (earlier later : Action) → Conflict → Prop
  | shiftReduce {lookahead : Symbol} {target rule : Nat} {production : Production}
      (h : grammar.production? rule = some production) :
      Reports grammar state lookahead (.shift target) (.reduce rule)
        (.shiftReduce state lookahead target production)
  | reduceShift {lookahead : Symbol} {target rule : Nat} {production : Production}
      (h : grammar.production? rule = some production) :
      Reports grammar state lookahead (.reduce rule) (.shift target)
        (.shiftReduce state lookahead target production)
  | reduceReduce {lookahead : Symbol} {rule rule' : Nat} {production production' : Production}
      (h : grammar.production? rule = some production)
      (h' : grammar.production? rule' = some production') :
      Reports grammar state lookahead (.reduce rule) (.reduce rule')
        (.reduceReduce state lookahead production production')
  | acceptReduce {rule : Nat} {production : Production}
      (h : grammar.production? rule = some production) :
      Reports grammar state .endMarker .accept (.reduce rule) (.acceptReduce state production)
  | reduceAccept {rule : Nat} {production : Production}
      (h : grammar.production? rule = some production) :
      Reports grammar state .endMarker (.reduce rule) .accept (.acceptReduce state production)

variable {automaton : Automaton} {follow : FollowSets} {state : Nat} {lookahead : Symbol}
  {earlier later : Action}

/-! ## Reports -/

theorem DemandAt.demand {site : Site} {action : Action}
    (h : DemandAt automaton follow site action) : Demand automaton follow site.state site.lookahead action :=
  h.2.demand h.1

/-- Of two different actions that a state demands under a symbol there is a report, and it is the
clash of the two. -/
theorem exists_reports (hearlier : Demand automaton follow state lookahead earlier)
    (hlater : Demand automaton follow state lookahead later) (hne : earlier ≠ later) :
    ∃ conflict, Reports automaton.grammar state lookahead earlier later conflict ∧
      clash? automaton.grammar ⟨state, lookahead⟩ earlier later = some conflict := by
  cases hearlier with
  | shift _ _ hkind htarget =>
      cases hlater with
      | shift _ _ _ htarget' =>
          exact absurd (congrArg Action.shift (Option.some.inj (htarget.symm.trans htarget'))) hne
      | reduce _ _ _ hproduction =>
          exact ⟨_, .shiftReduce hproduction, by simp [clash?, hproduction]⟩
      | accept => cases hkind
  | reduce _ _ _ hproduction =>
      cases hlater with
      | shift => exact ⟨_, .reduceShift hproduction, by simp [clash?, hproduction]⟩
      | reduce _ _ _ hproduction' =>
          have hrule := mt (congrArg Action.reduce) hne
          exact ⟨_, .reduceReduce hproduction hproduction',
            by simp [clash?, hrule, hproduction, hproduction']⟩
      | accept => exact ⟨_, .reduceAccept hproduction, by simp [clash?, hproduction]⟩
  | accept =>
      cases hlater with
      | shift _ _ hkind => cases hkind
      | reduce _ _ _ hproduction =>
          exact ⟨_, .acceptReduce hproduction, by simp [clash?, hproduction]⟩
      | accept => exact absurd rfl hne

/-! ## The demands in the order of their sites -/

/-- The demands of all items of all states, each with its item. -/
def placedDemands (automaton : Automaton) (follow : FollowSets) :
    List (Item × Cell Nat × Action) :=
  automaton.states.zipIdx.flatMap fun (items, state) =>
    items.toList.flatMap fun item =>
      (itemDemands automaton follow state item).map fun demand => (item, demand)

/-- The site of a demand. -/
def siteOf (demand : Item × Cell Nat × Action) : Site :=
  ⟨demand.2.1.row, demand.1, demand.2.1.column⟩

private theorem map_placedDemands :
    (placedDemands automaton follow).map Prod.snd = demands automaton follow := by
  simp only [placedDemands, demands, List.map_flatMap, List.map_map, Function.comp_def,
    List.map_id']

theorem mem_placedDemands {item : Item} {action : Action} :
    (item, ⟨state, lookahead⟩, action) ∈ placedDemands automaton follow ↔
      DemandAt automaton follow ⟨state, item, lookahead⟩ action := by
  simp only [placedDemands, List.mem_flatMap, SortedSet.mem_toList, Prod.exists, List.mem_map,
    Prod.mk.injEq]
  constructor
  · rintro ⟨items, number, hmem, own, hitem, cell, action, hdemand, rfl, rfl, rfl⟩
    obtain ⟨rfl, h⟩ := mem_itemDemands.mp hdemand
    exact ⟨itemsAt_of_mem_zipIdx hmem ▸ hitem, h⟩
  · rintro ⟨hitem, h⟩
    exact ⟨_, state, mem_zipIdx_of_mem_itemsAt hitem, item, hitem, _, action,
      mem_itemDemands.mpr ⟨rfl, h⟩, rfl, rfl, rfl⟩

private theorem pairwise_itemDemands (state : Nat) (item : Item) :
    (itemDemands automaton follow state item).Pairwise fun earlier later =>
      compare (siteOf (item, earlier)) (siteOf (item, later)) = .lt := by
  unfold itemDemands
  split
  · split
    · split
      · exact List.pairwise_singleton ..
      · exact .nil
    · exact .nil
  · split
    · exact List.pairwise_singleton ..
    · split
      · refine List.pairwise_map.mpr ((SortedSet.sorted _).imp fun hlt => ?_)
        exact Site.compare_eq_lt.mpr (.inr ⟨rfl, .inr ⟨rfl, hlt⟩⟩)
      · exact .nil

theorem pairwise_placedDemands : (placedDemands automaton follow).Pairwise fun earlier later =>
    compare (siteOf earlier) (siteOf later) = .lt := by
  refine List.pairwise_flatMap.mpr ⟨fun ⟨items, state⟩ _ => ?_, ?_⟩
  · refine List.pairwise_flatMap.mpr ⟨fun item _ => ?_, items.sorted.imp fun hlt => ?_⟩
    · exact List.pairwise_map.mpr (pairwise_itemDemands state item)
    · rintro _ hearlier _ hlater
      obtain ⟨⟨⟨row, column⟩, action⟩, hdemand, rfl⟩ := List.mem_map.mp hearlier
      obtain ⟨⟨⟨row', column'⟩, action'⟩, hdemand', rfl⟩ := List.mem_map.mp hlater
      obtain ⟨rfl, -⟩ := mem_itemDemands.mp hdemand
      obtain ⟨rfl, -⟩ := mem_itemDemands.mp hdemand'
      exact Site.compare_eq_lt.mpr (.inr ⟨rfl, .inl hlt⟩)
  · refine (pairwise_zipIdx automaton.states).imp fun {first second} hlt => ?_
    have hrow : ∀ (numbered : ItemSet × Nat) (placed : Item × Cell Nat × Action),
        placed ∈ (numbered.1.toList.flatMap fun item =>
          (itemDemands automaton follow numbered.2 item).map fun demand => (item, demand)) →
        placed.2.1.row = numbered.2 := by
      intro numbered placed hplaced
      obtain ⟨item, -, hplaced⟩ := List.mem_flatMap.mp hplaced
      obtain ⟨⟨⟨row, column⟩, action⟩, hdemand, rfl⟩ := List.mem_map.mp hplaced
      exact (mem_itemDemands.mp hdemand).1
    intro one hone other hother
    refine Site.compare_eq_lt.mpr (.inl ?_)
    show one.2.1.row < other.2.1.row
    rw [hrow first one hone, hrow second other hother]
    exact hlt

/-! ## What is made of the demands -/

/-- A table that cannot be made has a first disagreement, which the conflict reports. -/
theorem exists_firstDisagreement {conflict : Conflict}
    (h : ofFollow automaton follow = .error conflict) :
    ∃ site earlier later, FirstDisagreement automaton follow site earlier later ∧
      Reports automaton.grammar site.state site.lookahead earlier later conflict := by
  have hfill := map_eq_error_iff.mp h
  rw [← map_placedDemands] at hfill
  obtain ⟨⟨item, ⟨row, column⟩, earlier⟩, hearlier, ⟨item', cell, later⟩, hlater, horder, hsame,
    hclash, hfirst⟩ := SortedMap.exists_first_site pairwise_placedDemands (by
      rintro ⟨_, cell, action⟩ hdemand ⟨_, cell', action'⟩ hdemand' hcell hnone
      cases hcell
      exact eq_of_clash?_eq_none (mem_placedDemands.mp hdemand).demand
        (mem_placedDemands.mp hdemand').demand hnone) hfill
  cases hsame
  rw [mem_placedDemands] at hearlier hlater
  have hne : earlier ≠ later := by
    rintro rfl
    rw [clash?_self] at hclash
    cases hclash
  -- an item demands one action under a symbol, so the two items differ
  have hitem : compare item item' = .lt := by
    rcases Site.compare_eq_lt.mp horder with hlt | ⟨-, hlt | ⟨-, hlt⟩⟩
    · exact absurd hlt (Nat.lt_irrefl _)
    · exact hlt
    · cases ReflOrd.compare_self.symm.trans hlt
  obtain ⟨reported, hreports, hreported⟩ := exists_reports hearlier.demand hlater.demand hne
  cases hreported.symm.trans hclash
  refine ⟨⟨row, item', column⟩, earlier, later, ⟨⟨hlater, ⟨item, hitem, hearlier⟩, hne⟩, ?_⟩,
    hreports⟩
  rintro ⟨state, one, lookahead⟩ first second ⟨hsecond, ⟨other, hlt, hfirst'⟩, hne'⟩
  exact hfirst _ (mem_placedDemands.mpr hfirst') _ (mem_placedDemands.mpr hsecond)
    (Site.compare_eq_lt.mpr (.inr ⟨rfl, .inl hlt⟩)) rfl hne'

/-- For any FOLLOW sets, a table is made for a grammar's automaton if and only if no state demands
two actions under one symbol, and it holds exactly the demands and the transitions over
nonterminals; otherwise the answer reports the first disagreement.  Any disagreement could be
reported, each symbol behind a dot has its transition, and every item is one of a production. -/
theorem ofFollow_exact (grammar : Grammar) (follow : FollowSets) :
    ((∃ table, ofFollow (.ofGrammar grammar) follow = .ok table) ↔
      ∀ state lookahead first second, Demand (.ofGrammar grammar) follow state lookahead first →
        Demand (.ofGrammar grammar) follow state lookahead second → first = second) ∧
    (match ofFollow (.ofGrammar grammar) follow with
    | .ok table =>
        (∀ state lookahead action, table.action? state lookahead = some action ↔
          Demand (.ofGrammar grammar) follow state lookahead action) ∧
        ∀ state symbol target, table.goto? state symbol = some target ↔
          (Automaton.ofGrammar grammar).transition? state symbol = some target ∧
            symbol.isNonterminal = true
    | .error conflict => ∃ site earlier later,
        FirstDisagreement (.ofGrammar grammar) follow site earlier later ∧
        Reports grammar.augmented site.state site.lookahead earlier later conflict) ∧
    (∀ state lookahead earlier later,
      Demand (.ofGrammar grammar) follow state lookahead earlier →
      Demand (.ofGrammar grammar) follow state lookahead later → earlier ≠ later →
        ∃ conflict, Reports grammar.augmented state lookahead earlier later conflict) ∧
    ∀ state, ∀ item ∈ (Automaton.ofGrammar grammar).itemsAt state,
      item.rule < grammar.augmented.productions.length ∧
        ∀ symbol, item.next? grammar.augmented = some symbol →
          ∃ target, (Automaton.ofGrammar grammar).transition? state symbol = some target := by
  refine ⟨?_, ?_, ?_, ?_⟩
  · have hparser : (∃ parser, Parser.ofFollow grammar follow = .ok parser) ↔ _ :=
      Parser.exists_ofFollow_iff
    rwa [Parser.ofFollow, exists_map_eq_ok_iff] at hparser
  · split
    · rename_i table h
      have hparser : Parser.ofFollow grammar follow = .ok ⟨Automaton.ofGrammar grammar, table⟩ := by
        rw [Parser.ofFollow, h]
        rfl
      exact ⟨fun state lookahead action => Parser.action?_eq_some_iff hparser,
        fun state symbol target => Parser.goto?_eq_some_iff hparser⟩
    · rename_i conflict h
      exact exists_firstDisagreement h
  · intro state lookahead earlier later hearlier hlater hne
    obtain ⟨conflict, hreports, -⟩ := exists_reports hearlier hlater hne
    exact ⟨conflict, hreports⟩
  · intro state item hitem
    refine ⟨(Automaton.states_within grammar _ (Automaton.mem_states_of_mem_itemsAt hitem)
      item hitem).1, fun symbol hnext => ?_⟩
    obtain ⟨target, htarget, -⟩ := Automaton.exists_transition? hitem hnext
    exact ⟨target, htarget⟩

/-- Chains of `a`, which can be put together in several ways. -/
def chains : Grammar where
  start := .nonterminal "S"
  productions := [
    ⟨.nonterminal "S", [.nonterminal "S", .nonterminal "S"]⟩,
    ⟨.nonterminal "S", [.terminal "a"]⟩]
  wellFormed := Grammar.wellFormed_of_fault?_eq_none (by decide)

/-- Behind a chain of two, the reduction is demanded by an item that comes before those of the
shift. -/
example : ofFollow (.ofGrammar chains)
    (FollowSets.ofGrammar chains (FirstSets.ofGrammar chains)) =
      .error (.shiftReduce 3 (.terminal "a") 1
        ⟨.nonterminal "S", [.nonterminal "S", .nonterminal "S"]⟩) := by decide +kernel

end TableParsing.ShiftReduce.Table
