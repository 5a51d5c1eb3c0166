import TableParsing.Analysis
import TableParsing.Proofs.Predictive.Recognition
import TableParsing.Proofs.ShiftReduce.Renumbering
import TableParsing.Proofs.ShiftReduce.Termination
import TableParsing.Proofs.Validity

/-!
# The order of productions does not matter

If the productions of a grammar are listed in another order they still make a
grammar, and nothing that the analysis says of it changes except numbers and the
conflicts that are met first (`Grammar.analysedAlike_of_perm`): the alphabets, the
sets and the class are the same, and a parser of either kind exists and behaves
like the one for the other order.

* The sets do not depend on the order, and with the same sets two rules claim one
  cell of the predictive table if and only if they do under their new numbers.  As
  the predictive parser always answers, and accepts the sentences, there is nothing
  to follow step by step.
* The shift-reduce parser may go on for ever, on some inputs that are no sentences,
  so here the runs are compared: the automata differ in their numbers only.
-/

namespace TableParsing

open Machine

variable {renumber : Equiv.Perm ℕ} {grammar grammar' : Grammar}

/-! ## The predictive parser -/

namespace Predictive.Parser

variable {first : FirstSets} {follow : FollowSets} {parser parser' : Parser}

private theorem exists_ofSets_of_renumbers (h : grammar.Renumbers renumber grammar')
    (hmade : ∃ parser, ofSets grammar first follow = .ok parser) :
    ∃ parser', ofSets grammar' first follow = .ok parser' := by
  rw [exists_ofSets_iff] at hmade ⊢
  intro rule rule' production production' hrule hrule' hlhs lookahead hmem hmem'
  rw [← h.symm.production?] at hrule hrule'
  exact renumber.symm.injective
    (hmade _ _ production production' hrule hrule' hlhs lookahead hmem hmem')

theorem answers_iff (h : ofSets grammar first follow = .ok parser) {atoms : List String}
    {accepted : Bool} : parser.Answers atoms accepted ↔ parser.accepts atoms = accepted := by
  have hanswers : parser.Answers atoms (parser.accepts atoms) := answers_accepts h atoms
  constructor
  · exact Machine.Answers.unique hanswers
  · rintro rfl
    exact hanswers

end Predictive.Parser

/-! ## The analysis -/

theorem Analysis.grammarClass_eq {analysis analysis' : Analysis}
    (hll1 : (∃ parser, analysis.ll1 = .ok parser) ↔ ∃ parser, analysis'.ll1 = .ok parser)
    (hslr1 : (∃ parser, analysis.slr1 = .ok parser) ↔ ∃ parser, analysis'.slr1 = .ok parser) :
    analysis.grammarClass = analysis'.grammarClass := by
  unfold grammarClass
  cases hown : analysis.ll1 <;> cases hown' : analysis.slr1 <;> cases hother : analysis'.ll1 <;>
    cases hother' : analysis'.slr1 <;> simp_all

namespace Grammar

/-- The analyses of two grammars agree in everything but numbers and conflicts. -/
structure AnalysedAlike (grammar grammar' : Grammar) : Prop where
  terminals : grammar'.terminals = grammar.terminals
  nonterminals : grammar'.nonterminals = grammar.nonterminals
  first : (Analysis.ofGrammar grammar').first = (Analysis.ofGrammar grammar).first
  follow : (Analysis.ofGrammar grammar').follow = (Analysis.ofGrammar grammar).follow
  grammarClass :
    (Analysis.ofGrammar grammar').grammarClass = (Analysis.ofGrammar grammar).grammarClass
  /-- Where there is a predictive parser for the one grammar, there is one for the other, which comes
  to the same verdicts. -/
  ll1 : ∀ parser, (Analysis.ofGrammar grammar).ll1 = .ok parser →
    ∃ parser', (Analysis.ofGrammar grammar').ll1 = .ok parser' ∧ ∀ atoms,
      parser'.accepts atoms = parser.accepts atoms ∧
      ∀ accepted, parser'.Answers atoms accepted ↔ parser.Answers atoms accepted
  /-- The drivers of the shift-reduce parsers come to the same verdicts, or neither comes to one. -/
  slr1 : ∀ parser, (Analysis.ofGrammar grammar).slr1 = .ok parser →
    ∃ parser', (Analysis.ofGrammar grammar').slr1 = .ok parser' ∧ ∀ atoms,
      parser'.accepts atoms = parser.accepts atoms ∧
      (∀ accepted, parser'.Answers atoms accepted ↔ parser.Answers atoms accepted) ∧
      (Diverges parser'.step ShiftReduce.Parser.start atoms ↔
        Diverges parser.step ShiftReduce.Parser.start atoms)

namespace Renumbers

private theorem exists_ll1 (h : grammar.Renumbers renumber grammar')
    (hmade : ∃ parser, (Analysis.ofGrammar grammar).ll1 = .ok parser) :
    ∃ parser', (Analysis.ofGrammar grammar').ll1 = .ok parser' := by
  have hother := Predictive.Parser.exists_ofSets_of_renumbers h hmade
  rwa [h.same.follow_eq, h.same.first_eq] at hother

private theorem exists_slr1 (h : grammar.Renumbers renumber grammar')
    (hmade : ∃ parser, (Analysis.ofGrammar grammar).slr1 = .ok parser) :
    ∃ parser', (Analysis.ofGrammar grammar').slr1 = .ok parser' := by
  have hother := (ShiftReduce.Automaton.renumbers_ofGrammar h).exists_ofFollow hmade
  rwa [h.same.follow_eq] at hother

theorem analysedAlike (h : grammar.Renumbers renumber grammar') :
    AnalysedAlike grammar grammar' where
  terminals := h.same.terminals_eq.symm
  nonterminals := h.same.nonterminals_eq.symm
  first := h.same.first_eq.symm
  follow := h.same.follow_eq.symm
  grammarClass := Analysis.grammarClass_eq ⟨h.symm.exists_ll1, h.exists_ll1⟩
    ⟨h.symm.exists_slr1, h.exists_slr1⟩
  ll1 parser hparser := by
    obtain ⟨parser', hparser'⟩ := h.exists_ll1 ⟨parser, hparser⟩
    refine ⟨parser', hparser', fun atoms => ?_⟩
    have haccepts : parser'.accepts atoms = parser.accepts atoms := by
      rw [Bool.eq_iff_iff, Predictive.Parser.accepts_iff hparser',
        Predictive.Parser.accepts_iff hparser, h.same.isSentence_iff]
    refine ⟨haccepts, fun accepted => ?_⟩
    rw [Predictive.Parser.answers_iff hparser', Predictive.Parser.answers_iff hparser, haccepts]
  slr1 parser hparser := by
    obtain ⟨parser', hparser'⟩ := h.exists_slr1 ⟨parser, hparser⟩
    refine ⟨parser', hparser', fun atoms => ?_⟩
    have haccepts : parser'.accepts atoms = parser.accepts atoms := by
      rw [Bool.eq_iff_iff, ShiftReduce.Parser.accepts_iff hparser',
        ShiftReduce.Parser.accepts_iff hparser, h.same.isSentence_iff]
    -- both tables are made with the FOLLOW sets that the two grammars have in common
    have hown : ShiftReduce.Parser.ofFollow grammar
        (FollowSets.ofGrammar grammar' (FirstSets.ofGrammar grammar')) = .ok parser :=
      h.same.follow_eq ▸ hparser
    have hautomata := ShiftReduce.Automaton.renumbers_ofGrammar h
    exact ⟨haccepts, fun _ => hautomata.answers_iff hown hparser',
      hautomata.diverges_iff hown hparser'⟩

end Renumbers

/-- The productions of a grammar make a grammar in every order, and it is analysed alike. -/
theorem analysedAlike_of_perm (grammar : Grammar) {productions : List Production}
    (h : productions.Perm grammar.productions) :
    ∃ reordered, check grammar.start productions = .ok reordered ∧
      reordered.start = grammar.start ∧ reordered.productions = productions ∧
      AnalysedAlike grammar reordered := by
  have hwellFormed : WellFormed grammar.start productions :=
    grammar.wellFormed.of_mem_iff fun _ => h.mem_iff
  obtain ⟨reordered, hcheck, hstart, hproductions⟩ := exists_check hwellFormed
  have hperm : grammar.productions.Perm reordered.productions := hproductions ▸ h.symm
  obtain ⟨renumber, hrenumbers⟩ := exists_renumbers_of_perm hstart.symm hperm
  exact ⟨reordered, hcheck, hstart, hproductions, hrenumbers.analysedAlike⟩

open ShiftReduce.Parser in
/-- With the productions of `endless` in another order the shift-reduce driver goes on for ever on
the same input. -/
theorem analysedAlike_of_perm_endless :
    ∃ productions reordered, productions.Perm endless.productions ∧
      productions ≠ endless.productions ∧ check endless.start productions = .ok reordered ∧
      ∃ parser, (Analysis.ofGrammar reordered).slr1 = .ok parser ∧
        ∀ accepted, ¬ parser.Answers ["d", "c"] accepted := by
  have hperm : endless.productions.reverse.Perm endless.productions := List.reverse_perm _
  obtain ⟨reordered, hcheck, _, _, halike⟩ := analysedAlike_of_perm endless hperm
  obtain ⟨parser, hparser, hnone⟩ := not_answers_endless
  obtain ⟨parser', hparser', hsame⟩ := halike.slr1 parser hparser
  refine ⟨_, reordered, hperm, by decide, hcheck, parser', hparser', fun accepted hanswers => ?_⟩
  exact hnone accepted (((hsame ["d", "c"]).2.1 accepted).mp hanswers)

end Grammar

end TableParsing
