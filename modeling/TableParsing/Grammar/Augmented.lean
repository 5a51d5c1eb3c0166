import TableParsing.Grammar.Basic

/-!
# Augmented grammars

Augmenting a grammar adds a start symbol of its own with the single production
that leads to the old one.  The new production comes last, so that every rule
keeps its number, and the new name is the old start's atom with as many primes
as it takes to be new.
-/

namespace TableParsing

namespace Grammar

/-! ## A new name -/

/-- A longer name leaves out at least the name itself from the taken names of its length or more. -/
theorem longer_names_lt {taken : List String} {name : String} (h : name ∈ taken) :
    (taken.filter fun other => (name.push '\'').length ≤ other.length).length <
      (taken.filter fun other => name.length ≤ other.length).length := by
  induction taken with
  | nil => cases h
  | cons other rest ih =>
    have fewer : (rest.filter fun other => (name.push '\'').length ≤ other.length).length ≤
        (rest.filter fun other => name.length ≤ other.length).length := by
      simp only [← List.countP_eq_length_filter]
      exact List.countP_mono_left fun other _ longer => by
        simp only [String.length_push, decide_eq_true_eq] at longer ⊢
        omega
    rcases List.mem_cons.mp h with rfl | h
    · simp only [List.filter_cons, String.length_push]
      simp only [String.length_push] at fewer
      grind
    · have := ih h
      simp only [List.filter_cons, String.length_push] at this ⊢
      grind

/-- The first of `name`, `name'`, `name''`, … that is not taken. -/
def freshName (taken : List String) (name : String) : String :=
  if name ∈ taken then freshName taken (name.push '\'') else name
termination_by (taken.filter fun other => name.length ≤ other.length).length
decreasing_by exact longer_names_lt ‹_›

theorem freshName_not_mem (taken : List String) (name : String) : freshName taken name ∉ taken := by
  fun_induction freshName taken name with
  | case1 name h ih => exact ih
  | case2 name h => exact h

/-! ## The new grammar -/

variable (grammar : Grammar)

/-- The start symbol of the augmented grammar. -/
def augmentedStart : Symbol :=
  .nonterminal (freshName (grammar.nonterminals.toList.map Symbol.atom) (grammar.start.atom.push '\''))

/-- The number of the production that leads from the new start symbol to the old one. -/
def startRule : Nat := grammar.productions.length

/-- The production that leads from the new start symbol to the old one. -/
def startProduction : Production := ⟨grammar.augmentedStart, [grammar.start]⟩

theorem start_isNonterminal : grammar.start.isNonterminal = true := by
  obtain ⟨production, hmem, same⟩ := grammar.wellFormed.start_defined
  exact same ▸ (grammar.wellFormed.valid production hmem).lhs_isNonterminal

theorem startProduction_valid : grammar.startProduction.Valid := by
  have kind := grammar.start_isNonterminal
  have shape : ∃ atom, grammar.start = .nonterminal atom := by
    cases h : grammar.start <;> simp_all [Symbol.isNonterminal]
  obtain ⟨atom, shape⟩ := shape
  constructor <;>
    simp [startProduction, augmentedStart, Symbol.isNonterminal, shape, Production.isReserved,
      Symbol.isTerminal]

theorem augmented_wellFormed :
    WellFormed grammar.augmentedStart (grammar.productions ++ [grammar.startProduction]) where
  valid production hmem := by
    rcases List.mem_append.mp hmem with hmem | hmem
    · exact grammar.wellFormed.valid production hmem
    · exact List.mem_singleton.mp hmem ▸ grammar.startProduction_valid
  start_defined := ⟨grammar.startProduction, by simp, rfl⟩
  nonterminals_defined production hmem symbol hsymbol kind := by
    rcases List.mem_append.mp hmem with hmem | hmem
    · obtain ⟨definition, hdefinition, same⟩ :=
        grammar.wellFormed.nonterminals_defined production hmem symbol hsymbol kind
      exact ⟨definition, List.mem_append_left _ hdefinition, same⟩
    · rw [List.mem_singleton.mp hmem] at hsymbol
      obtain ⟨definition, hdefinition, same⟩ := grammar.wellFormed.start_defined
      exact ⟨definition, List.mem_append_left _ hdefinition,
        same.trans (List.mem_singleton.mp hsymbol).symm⟩

/-- The grammar with a start symbol of its own before the old one. -/
def augmented : Grammar where
  start := grammar.augmentedStart
  productions := grammar.productions ++ [grammar.startProduction]
  wellFormed := grammar.augmented_wellFormed

end Grammar

end TableParsing
