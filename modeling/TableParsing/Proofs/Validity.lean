import TableParsing.Grammar.Basic

/-!
# What the checks of a grammar let pass

`Grammar.check` looks for the first fault of a list of productions.  It finds none
exactly if the list is well formed (`Grammar.fault?_eq_none_iff`), so the grammars
that it makes are all grammars, each from its own start symbol and productions
(`Grammar.check_eq_ok_iff`).
-/

namespace TableParsing

theorem Production.fault?_eq_none_iff {production : Production} :
    production.fault? = none ↔ production.Valid := by
  refine ⟨valid_of_fault?_eq_none, fun h => ?_⟩
  have hlhs := h.lhs_isNonterminal
  have hrhs := h.rhs_ne_nil
  have hmarker := h.endMarker_not_mem
  have hreserved : production.rhs.find? isReserved = none :=
    List.find?_eq_none.mpr fun symbol hsymbol => by simp [h.not_isReserved symbol hsymbol]
  -- the mark of the empty string is not one symbol of several
  have halone : ¬ (1 < production.rhs.length ∧ .epsilon ∈ production.rhs) := by
    rintro ⟨hlong, hmem⟩
    rw [h.epsilon_alone hmem] at hlong
    exact absurd hlong (by decide)
  unfold fault?
  simp only [hlhs, hreserved, Bool.not_true, Bool.false_eq_true, if_false, List.isEmpty_iff, hrhs,
    List.contains_iff_mem, hmarker, Bool.and_eq_true, decide_eq_true_eq, halone]

/-- What is made of two sides is the valid production with these sides. -/
theorem Production.make_eq_ok_iff {lhs : Symbol} {rhs : List Symbol} {production : Production} :
    make lhs rhs = .ok production ↔ production = ⟨lhs, rhs⟩ ∧ production.Valid := by
  unfold make
  constructor
  · intro h
    split at h
    · cases h
    · rename_i hnone
      cases h
      exact ⟨rfl, fault?_eq_none_iff.mp hnone⟩
  · rintro ⟨rfl, hvalid⟩
    rw [fault?_eq_none_iff.mpr hvalid]

/-- Only which productions there are counts for a list to be well formed. -/
theorem WellFormed.of_mem_iff {start : Symbol} {productions productions' : List Production}
    (h : WellFormed start productions)
    (hsame : ∀ production, production ∈ productions' ↔ production ∈ productions) :
    WellFormed start productions' := by
  constructor
  case valid => simpa only [hsame] using h.valid
  case start_defined => simpa only [hsame] using h.start_defined
  case nonterminals_defined => simpa only [hsame] using h.nonterminals_defined

namespace Grammar

theorem fault?_eq_none_iff {start : Symbol} {productions : List Production} :
    fault? start productions = none ↔ WellFormed start productions := by
  refine ⟨wellFormed_of_fault?_eq_none, fun h => ?_⟩
  obtain ⟨first, hfirst, hstart⟩ := h.start_defined
  have hkind : start.isNonterminal = true := hstart ▸ (h.valid first hfirst).lhs_isNonterminal
  have hsome : productions ≠ [] := List.ne_nil_of_mem hfirst
  have hvalid : productions.findSome? Production.fault? = none :=
    List.findSome?_eq_none_iff.mpr fun production hproduction =>
      Production.fault?_eq_none_iff.mpr (h.valid production hproduction)
  have hdefined : isDefinedIn productions start = true :=
    isDefinedIn_iff.mpr ⟨first, hfirst, hstart⟩
  have hundefined : (productions.flatMap (·.rhs)).find? (fun symbol =>
      symbol.isNonterminal && !isDefinedIn productions symbol) = none := by
    refine List.find?_eq_none.mpr fun symbol hsymbol => ?_
    obtain ⟨production, hproduction, hrhs⟩ := List.mem_flatMap.mp hsymbol
    intro hboth
    rw [Bool.and_eq_true] at hboth
    rw [isDefinedIn_iff.mpr (h.nonterminals_defined production hproduction symbol hrhs hboth.1)]
      at hboth
    exact absurd hboth.2 (by decide)
  unfold fault?
  simp only [hkind, hvalid, hdefined, hundefined, hsome, Bool.not_true, Bool.false_eq_true,
    if_false, List.isEmpty_iff, Option.map_none]

/-- What is made is a grammar with the given start symbol and productions, and every such grammar is
made. -/
theorem check_eq_ok_iff {start : Symbol} {productions : List Production} {grammar : Grammar} :
    check start productions = .ok grammar ↔
      grammar.start = start ∧ grammar.productions = productions := by
  unfold check
  constructor
  · intro h
    split at h
    · cases h
    · cases h
      exact ⟨rfl, rfl⟩
  · rintro ⟨rfl, rfl⟩
    split
    · rename_i error herror
      rw [fault?_eq_none_iff.mpr grammar.wellFormed] at herror
      cases herror
    · rfl

theorem exists_check {start : Symbol} {productions : List Production}
    (h : WellFormed start productions) : ∃ grammar, check start productions = .ok grammar ∧
      grammar.start = start ∧ grammar.productions = productions :=
  ⟨⟨start, productions, h⟩, check_eq_ok_iff.mpr ⟨rfl, rfl⟩, rfl, rfl⟩

end Grammar

end TableParsing
