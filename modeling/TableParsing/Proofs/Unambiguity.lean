import TableParsing.Proofs.Predictive.Table
import TableParsing.Proofs.ShiftReduce.Planting

/-!
# A parser certifies that its grammar is unambiguous

If a predictive or a shift-reduce table could be made with the FIRST and FOLLOW
sets of the grammar itself, then every word of the language has exactly one parse
tree (`unambiguous_of_table`).  Conflicts compare two productions in one cell;
ambiguity is a matter of whole trees.  For a predictive table two trees of one
word are compared from the root: each node applies the production that is
predicted there.  For a shift-reduce table they are compared along the run of the
driver, which rebuilds either of them.
-/

namespace TableParsing.Grammar

variable {grammar : Grammar}

/-- Every word that can be derived has exactly one parse tree. -/
def Unambiguous (grammar : Grammar) : Prop :=
  ∀ word, IsWord word → grammar.Derives [grammar.start] word →
    ∃! tree, grammar.Parses [grammar.start] [tree] word

/-- It is enough that no word has two trees. -/
theorem unambiguous_of_unique
    (h : ∀ word tree tree', grammar.Parses [grammar.start] [tree] word →
      grammar.Parses [grammar.start] [tree'] word → tree = tree') : grammar.Unambiguous := by
  intro word hword hderives
  obtain ⟨trees, htrees⟩ := hderives.exists_parses hword
  obtain ⟨tree, rfl⟩ := htrees.eq_singleton
  exact ⟨tree, htrees, fun other hother => h word other tree hother htrees⟩

/-- A grammar for which a table can be made with its own sets, by either method, is unambiguous. -/
theorem unambiguous_of_table
    (h : (∃ parser, Predictive.Parser.ofSets grammar (FirstSets.ofGrammar grammar)
        (FollowSets.ofGrammar grammar (FirstSets.ofGrammar grammar)) = .ok parser) ∨
      ∃ parser, ShiftReduce.Parser.ofFollow grammar
        (FollowSets.ofGrammar grammar (FirstSets.ofGrammar grammar)) = .ok parser) :
    grammar.Unambiguous := by
  have hfirst := FirstSets.ofGrammar_closed grammar
  have hfollow := FollowSets.ofGrammar_closed grammar (FirstSets.ofGrammar grammar)
  apply unambiguous_of_unique
  intro word tree tree' htree htree'
  rcases h with ⟨parser, h⟩ | ⟨parser, h⟩
  · have hcovers : FollowSets.Covers (FirstSets.ofGrammar grammar)
        (FollowSets.ofGrammar grammar (FirstSets.ofGrammar grammar)) [.endMarker]
        ([grammar.start] ++ []) := hfollow.covers_start
    have hsame := Predictive.Parser.parses_unique h hfirst hfollow htree htree' hcovers
      (Derives.refl []) (Derives.refl []) isWord_nil isWord_nil rfl
    exact (List.cons.inj hsame.1).1
  · exact ShiftReduce.Parser.parses_unique h hfirst hfollow htree htree'

/-- Sequences of nested parentheses. -/
def parentheses : Grammar where
  start := .nonterminal "S"
  productions := [
    ⟨.nonterminal "S", [.terminal "(", .nonterminal "S", .terminal ")", .nonterminal "S"]⟩,
    ⟨.nonterminal "S", [.epsilon]⟩]
  wellFormed := wellFormed_of_fault?_eq_none (by decide)

/-- There is a predictive parser for `parentheses`, so `( )` has exactly one tree. -/
theorem unambiguous_of_table_parentheses :
    ∃! tree, parentheses.Parses [.nonterminal "S"] [tree] [.terminal "(", .terminal ")"] := by
  have hmade : ((Predictive.Parser.ofSets parentheses (FirstSets.ofGrammar parentheses)
      (FollowSets.ofGrammar parentheses (FirstSets.ofGrammar parentheses))).toOption.map
        fun parser => parser.accepts ["(", ")"]) = some true := by decide +kernel
  obtain ⟨parser, h, _⟩ := exists_ok_of_toOption_map hmade
  have hnested : (⟨.nonterminal "S", [.terminal "(", .nonterminal "S", .terminal ")",
      .nonterminal "S"]⟩ : Production) ∈ parentheses.productions := by decide
  have hempty : (⟨.nonterminal "S", [.epsilon]⟩ : Production) ∈ parentheses.productions := by decide
  have hderives : parentheses.Derives [.nonterminal "S"] [.terminal "(", .terminal ")"] :=
    (derives_body hnested [] []).trans
      ((derives_body hempty [.terminal "("] [.terminal ")", .nonterminal "S"]).trans
        (derives_body hempty [.terminal "(", .terminal ")"] []))
  exact unambiguous_of_table (.inl ⟨parser, h⟩) _ (isWord_map_terminal ["(", ")"]) hderives

end TableParsing.Grammar
