import Mathlib.Tactic.ByContra
import TableParsing.Proofs.Derivation

/-!
# The productions of an augmented grammar

The production that is added leads from a new symbol to the old start symbol.
All other productions keep their numbers, and in no body does the new symbol
occur: what stands in a body of the augmented grammar is a terminal or a
nonterminal of the grammar itself.  The derivations of the grammar are those of
the augmented one, behind a first step (`derives_of_augmented_derives`).
-/

namespace TableParsing.Grammar

variable {grammar : Grammar}

theorem augmented_production?_startRule (grammar : Grammar) :
    grammar.augmented.production? grammar.startRule = some grammar.startProduction := by
  simp [production?, augmented, startRule]

/-- The productions of the grammar keep their numbers. -/
theorem augmented_production?_of_production? {rule : Nat} {production : Production}
    (h : grammar.production? rule = some production) :
    grammar.augmented.production? rule = some production := by
  have hlt := lt_of_production? h
  show (grammar.productions ++ [grammar.startProduction])[rule]? = some production
  rw [List.getElem?_append_left hlt]
  exact h

theorem ne_startRule_of_production? {rule : Nat} {production : Production}
    (h : grammar.production? rule = some production) : rule ≠ grammar.startRule :=
  Nat.ne_of_lt (lt_of_production? h)

/-- Any other number of the augmented grammar is a number of the grammar. -/
theorem production?_of_augmented {rule : Nat} {production : Production}
    (h : grammar.augmented.production? rule = some production) (hne : rule ≠ grammar.startRule) :
    grammar.production? rule = some production := by
  have hlt : rule < (grammar.productions ++ [grammar.startProduction]).length := lt_of_production? h
  rw [List.length_append, List.length_singleton] at hlt
  have hold : rule < grammar.productions.length := by
    simp only [startRule] at hne
    omega
  have hget : (grammar.productions ++ [grammar.startProduction])[rule]? = some production := h
  rwa [List.getElem?_append_left hold] at hget

theorem augmented_body_of_production? {rule : Nat} {production : Production}
    (h : grammar.production? rule = some production) :
    grammar.augmented.body rule = production.body :=
  body_of_production? (augmented_production?_of_production? h)

theorem startProduction_body (grammar : Grammar) :
    grammar.startProduction.body = [grammar.start] := by
  have hkind := grammar.start_isNonterminal
  have hne : grammar.start ≠ .epsilon := by
    intro h
    rw [h] at hkind
    cases hkind
  simp [startProduction, Production.body, Production.isEpsilon, hne]

theorem augmented_body_startRule (grammar : Grammar) :
    grammar.augmented.body grammar.startRule = [grammar.start] := by
  rw [body_of_production? grammar.augmented_production?_startRule, startProduction_body]

theorem augmentedStart_not_mem_nonterminals (grammar : Grammar) :
    grammar.augmentedStart ∉ grammar.nonterminals :=
  fun h => freshName_not_mem _ _ (List.mem_map_of_mem (f := Symbol.atom) h)

theorem mem_nonterminals_augmented {symbol : Symbol} :
    symbol ∈ grammar.augmented.nonterminals ↔
      symbol ∈ grammar.nonterminals ∨ symbol = grammar.augmentedStart := by
  simp only [mem_nonterminals, augmented, startProduction, List.mem_append, List.mem_singleton]
  constructor
  · rintro ⟨production, hold | rfl, rfl⟩
    · exact .inl ⟨production, hold, rfl⟩
    · exact .inr rfl
  · rintro (⟨production, hold, rfl⟩ | rfl)
    · exact ⟨production, .inl hold, rfl⟩
    · exact ⟨_, .inr rfl, rfl⟩

theorem terminals_augmented (grammar : Grammar) :
    grammar.augmented.terminals = grammar.terminals := by
  apply SortedSet.ext_mem
  intro symbol
  have hstart : ¬ (symbol = grammar.start ∧ symbol.isTerminal = true) := by
    rintro ⟨rfl, hterminal⟩
    exact Symbol.not_isTerminal_of_isNonterminal grammar.start_isNonterminal hterminal
  simp only [terminals, augmented, startProduction, SortedSet.mem_ofList, List.mem_filter,
    List.flatMap_append, List.flatMap_singleton, List.mem_append, List.mem_singleton]
  grind

/-- In the bodies of the augmented grammar stand terminals and the nonterminals of the grammar. -/
theorem terminal_or_mem_nonterminals_of_mem_augmented_body {rule : Nat} {symbol : Symbol}
    (h : symbol ∈ grammar.augmented.body rule) :
    symbol.isTerminal = true ∨ symbol ∈ grammar.nonterminals := by
  by_cases hrule : rule = grammar.startRule
  · rw [hrule, augmented_body_startRule, List.mem_singleton] at h
    exact .inr (h ▸ start_mem_nonterminals)
  · cases hproduction : grammar.augmented.production? rule with
    | none =>
        rw [body, hproduction] at h
        cases h
    | some production =>
        rw [body_of_production? hproduction] at h
        have hmem := mem_of_production? (production?_of_augmented hproduction hrule)
        rcases terminal_or_nonterminal_of_mem_body hmem h with hterminal | hnonterminal
        · exact .inl hterminal
        · exact .inr (mem_nonterminals_of_mem_body hmem h hnonterminal)

theorem augmentedStart_not_mem_augmented_body (rule : Nat) :
    grammar.augmentedStart ∉ grammar.augmented.body rule := by
  intro h
  rcases terminal_or_mem_nonterminals_of_mem_augmented_body h with hterminal | hmem
  · cases hterminal
  · exact grammar.augmentedStart_not_mem_nonterminals hmem

theorem mem_augmented_rulesFor {symbol : Symbol} (hne : symbol ≠ grammar.augmentedStart)
    {rule : Nat} :
    rule ∈ grammar.augmented.rulesFor symbol ↔
      ∃ production, grammar.production? rule = some production ∧ production.lhs = symbol := by
  rw [mem_rulesFor]
  constructor
  · rintro ⟨production, hproduction, hlhs⟩
    refine ⟨production, production?_of_augmented hproduction ?_, hlhs⟩
    rintro rfl
    rw [augmented_production?_startRule] at hproduction
    cases hproduction
    exact hne hlhs.symm
  · rintro ⟨production, hproduction, hlhs⟩
    exact ⟨production, augmented_production?_of_production? hproduction, hlhs⟩

/-- The only production of the new start symbol is the one that was added. -/
theorem eq_startRule_of_mem_rulesFor {rule : Nat}
    (h : rule ∈ grammar.augmented.rulesFor grammar.augmentedStart) : rule = grammar.startRule := by
  by_contra hne
  obtain ⟨production, hproduction, hlhs⟩ := mem_rulesFor.mp h
  have hold := mem_of_production? (production?_of_augmented hproduction hne)
  exact grammar.augmentedStart_not_mem_nonterminals (mem_nonterminals.mpr ⟨production, hold, hlhs⟩)

/-! ## Derivations -/

theorem Derives.augmented {first second : List Symbol} (h : grammar.Derives first second) :
    grammar.augmented.Derives first second := by
  induction h with
  | refl => exact Derives.refl _
  | tail _ hstep ih =>
      obtain ⟨hproduction, before, after⟩ := hstep
      exact ih.trans (derives_body (List.mem_append_left _ hproduction) before after)

/-- Strings without the new start symbol derive nothing new, the new symbol least of all. -/
theorem Derives.of_augmented {first second : List Symbol} (h : grammar.augmented.Derives first second)
    (hnone : grammar.augmentedStart ∉ first) :
    grammar.Derives first second ∧ grammar.augmentedStart ∉ second := by
  refine h.preserves (motive := fun form => grammar.Derives first form ∧
    grammar.augmentedStart ∉ form) ⟨Derives.refl _, hnone⟩ ?_
  rintro _ _ @⟨production, hproduction, before, after⟩ ⟨hderives, hform⟩
  rcases List.mem_append.mp hproduction with hold | hnew
  · obtain ⟨rule, hrule⟩ := exists_production?_of_mem hproduction
    have hbody : grammar.augmentedStart ∉ grammar.augmented.body rule :=
      augmentedStart_not_mem_augmented_body rule
    rw [body_of_production? hrule] at hbody
    refine ⟨hderives.trans (derives_body hold before after), ?_⟩
    simp only [List.mem_append, List.mem_cons, not_or] at hform ⊢
    exact ⟨⟨hform.1, hbody⟩, hform.2.2⟩
  · obtain rfl := List.mem_singleton.mp hnew
    exact absurd (List.mem_append_right _ List.mem_cons_self) hform

theorem augmented_derives_start (grammar : Grammar) :
    grammar.augmented.Derives [grammar.augmentedStart] [grammar.start] := by
  have hproduction := mem_of_production? grammar.augmented_production?_startRule
  have hstep := derives_body hproduction [] []
  rw [startProduction_body] at hstep
  exact hstep

/-- Besides itself, the new start symbol derives what the old one derives in the grammar. -/
theorem derives_of_augmented_derives {form : List Symbol}
    (h : grammar.augmented.Derives [grammar.augmentedStart] form) :
    form = [grammar.augmentedStart] ∨
      grammar.augmentedStart ∉ form ∧ grammar.Derives [grammar.start] form := by
  rcases Relation.ReflTransGen.cases_head h with hself | ⟨next, hstep, hrest⟩
  · exact .inl hself.symm
  · have hnext : next = [grammar.start] := by
      generalize hfirst : [grammar.augmentedStart] = first at hstep
      obtain @⟨production, hproduction, before, after⟩ := hstep
      obtain ⟨rfl, hfront⟩ | ⟨_, hnil⟩ := List.append_eq_singleton_iff.mp hfirst.symm
      · obtain ⟨hlhs, rfl⟩ := List.cons.inj hfront
        -- the new symbol has the added production only
        rcases List.mem_append.mp hproduction with hold | hnew
        · exact absurd (mem_nonterminals.mpr ⟨production, hold, hlhs⟩)
            grammar.augmentedStart_not_mem_nonterminals
        · rw [List.mem_singleton.mp hnew, startProduction_body]
          rfl
      · cases hnil
    have hstart : grammar.augmentedStart ∉ [grammar.start] := fun hmem =>
      grammar.augmentedStart_not_mem_nonterminals (List.mem_singleton.mp hmem ▸ start_mem_nonterminals)
    obtain ⟨hderives, hnone⟩ := Derives.of_augmented (hnext ▸ hrest) hstart
    exact .inr ⟨hnone, hderives⟩

theorem Productive.augmented (h : grammar.Productive) : grammar.augmented.Productive := by
  intro symbol hsymbol
  obtain ⟨production, hproduction, rfl⟩ := mem_nonterminals.mp hsymbol
  rcases List.mem_append.mp hproduction with hold | hnew
  · obtain ⟨word, hword, hderives⟩ := h _ (mem_nonterminals.mpr ⟨production, hold, rfl⟩)
    exact ⟨word, hword, hderives.augmented⟩
  · obtain ⟨word, hword, hderives⟩ := h _ start_mem_nonterminals
    rw [List.mem_singleton.mp hnew]
    exact ⟨word, hword, grammar.augmented_derives_start.trans hderives.augmented⟩

end TableParsing.Grammar
