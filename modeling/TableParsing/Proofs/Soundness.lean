import TableParsing.Proofs.Predictive.Recognition
import TableParsing.Proofs.ShiftReduce.Recognition

/-!
# Wrong sets cost no soundness

FIRST and FOLLOW decide what stands in the tables, and a parser can be made with
those of another grammar.  If the table is made at all, such a parser may refuse
sentences, but it accepts nothing else (`isSentence_of_accepted`).

What keeps the parsers sound is therefore not in the sets.  The predictive driver
only ever replaces a nonterminal by one of its bodies, so that the start symbol
derives what has been read followed by the stack.  The shift-reduce driver only
reduces a body that the path of its automaton has spelled, so that its stack
derives what has been read.

The sets are needed for completeness, and there it is enough that they are closed
under the rules of the grammar.  However much they hold besides, nothing is lost
as long as a table can be made (`accepts_iff_of_closed`).
-/

namespace TableParsing

/-- Whatever the sets that a parser was made with, only sentences are accepted: by the predictive
parser, by the shift-reduce driver however long it runs, and within the bound on its steps. -/
theorem isSentence_of_accepted (grammar : Grammar) (first : FirstSets) (follow : FollowSets)
    (atoms : List String) :
    (∀ parser, Predictive.Parser.ofSets grammar first follow = .ok parser →
      parser.accepts atoms = true → grammar.IsSentence atoms) ∧
    (∀ parser, ShiftReduce.Parser.ofFollow grammar follow = .ok parser →
      parser.Answers atoms true ∨ parser.accepts atoms = true → grammar.IsSentence atoms) := by
  refine ⟨fun parser h haccepts => Predictive.Parser.isSentence_of_accepts h haccepts,
    fun parser h haccepts => ShiftReduce.Parser.isSentence_of_answers h ?_⟩
  rcases haccepts with hanswers | haccepts
  · exact hanswers
  · exact ShiftReduce.Parser.answers_of_accepts haccepts

/-- An `a` before `c` is an `A` as well as a `B`. -/
def twofold : Grammar where
  start := .nonterminal "S"
  productions := [
    ⟨.nonterminal "S", [.nonterminal "A", .terminal "c"]⟩,
    ⟨.nonterminal "S", [.nonterminal "B", .terminal "c"]⟩,
    ⟨.nonterminal "A", [.terminal "a"]⟩,
    ⟨.nonterminal "A", [.terminal "b"]⟩,
    ⟨.nonterminal "B", [.terminal "a"]⟩]
  wellFormed := Grammar.wellFormed_of_fault?_eq_none (by decide)

/-- `twofold` without the second way. -/
def onefold : Grammar where
  start := .nonterminal "S"
  productions := [
    ⟨.nonterminal "S", [.nonterminal "A", .terminal "c"]⟩,
    ⟨.nonterminal "A", [.terminal "a"]⟩,
    ⟨.nonterminal "A", [.terminal "b"]⟩]
  wellFormed := Grammar.wellFormed_of_fault?_eq_none (by decide)

/-- With the sets of `onefold` there are parsers for `twofold`, for which its own sets make none, and
what these accept are sentences. -/
theorem isSentence_of_accepted_twofold :
    Predictive.Parser.ofSets twofold (FirstSets.ofGrammar twofold)
        (FollowSets.ofGrammar twofold (FirstSets.ofGrammar twofold)) =
      .error ⟨.nonterminal "S", .terminal "a",
        ⟨.nonterminal "S", [.nonterminal "A", .terminal "c"]⟩,
        ⟨.nonterminal "S", [.nonterminal "B", .terminal "c"]⟩⟩ ∧
    ShiftReduce.Parser.ofFollow twofold
        (FollowSets.ofGrammar twofold (FirstSets.ofGrammar twofold)) =
      .error (.reduceReduce 1 (.terminal "c") ⟨.nonterminal "A", [.terminal "a"]⟩
        ⟨.nonterminal "B", [.terminal "a"]⟩) ∧
    (∃ parser, Predictive.Parser.ofSets twofold (FirstSets.ofGrammar onefold)
        (FollowSets.ofGrammar onefold (FirstSets.ofGrammar onefold)) = .ok parser ∧
      parser.accepts ["a", "c"] = true ∧ twofold.IsSentence ["a", "c"]) ∧
    (∃ parser, ShiftReduce.Parser.ofFollow twofold
        (FollowSets.ofGrammar onefold (FirstSets.ofGrammar onefold)) = .ok parser ∧
      parser.accepts ["b", "c"] = true ∧ twofold.IsSentence ["b", "c"]) := by
  have hpredictive : ((Predictive.Parser.ofSets twofold (FirstSets.ofGrammar onefold)
      (FollowSets.ofGrammar onefold (FirstSets.ofGrammar onefold))).toOption.map
        fun parser => parser.accepts ["a", "c"]) = some true := by
    decide +kernel
  have hshiftReduce : ((ShiftReduce.Parser.ofFollow twofold
      (FollowSets.ofGrammar onefold (FirstSets.ofGrammar onefold))).toOption.map
        fun parser => parser.accepts ["b", "c"]) = some true := by
    decide +kernel
  refine ⟨by decide +kernel, by decide +kernel, ?_, ?_⟩
  · obtain ⟨parser, h, haccepts⟩ := exists_ok_of_toOption_map hpredictive
    exact ⟨parser, h, haccepts, (isSentence_of_accepted _ _ _ _).1 parser h haccepts⟩
  · obtain ⟨parser, h, haccepts⟩ := exists_ok_of_toOption_map hshiftReduce
    exact ⟨parser, h, haccepts,
      (isSentence_of_accepted twofold (FirstSets.ofGrammar onefold) _ _).2 parser h
        (.inr haccepts)⟩

theorem accepts_iff_of_closed {grammar : Grammar} {first : FirstSets} {follow : FollowSets}
    (hfirst : first.Closed grammar) (hfollow : FollowSets.Closed grammar first follow)
    (atoms : List String) :
    (∀ parser, Predictive.Parser.ofSets grammar first follow = .ok parser →
      (parser.accepts atoms = true ↔ grammar.IsSentence atoms)) ∧
    (∀ parser, ShiftReduce.Parser.ofFollow grammar follow = .ok parser →
      (parser.accepts atoms = true ↔ grammar.IsSentence atoms)) := by
  refine ⟨fun parser h => ⟨?_, ?_⟩, fun parser h => ⟨?_, ?_⟩⟩
  · exact Predictive.Parser.isSentence_of_accepts h
  · exact Predictive.Parser.accepts_of_isSentence h hfirst hfollow
  · exact fun haccepts =>
      ShiftReduce.Parser.isSentence_of_answers h (ShiftReduce.Parser.answers_of_accepts haccepts)
  · exact ShiftReduce.Parser.accepts_of_isSentence h hfirst hfollow

end TableParsing
