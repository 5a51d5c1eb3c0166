import TableParsing.Predictive.Parser
import TableParsing.ShiftReduce.Parser

/-!
# Analysing a grammar

The analysis of a grammar computes its FIRST and FOLLOW sets and tries both
parsing methods with them.  Which of the two succeed is the class of the
grammar.
-/

namespace TableParsing

/-- Which of the parsing methods a grammar admits. -/
inductive GrammarClass where
  | both
  | ll1Only
  | slr1Only
  | neither
deriving DecidableEq, Repr

def GrammarClass.text : GrammarClass → String
  | both => "Grammar is LL(1) and SLR(1)."
  | ll1Only => "Grammar is LL(1)."
  | slr1Only => "Grammar is SLR(1)."
  | neither => "Grammar is neither LL(1) nor SLR(1)."

/-- The sets of a grammar with the outcome of both parsing methods. -/
structure Analysis where
  first : FirstSets
  follow : FollowSets
  ll1 : Except Predictive.Conflict Predictive.Parser
  slr1 : Except ShiftReduce.Conflict ShiftReduce.Parser

namespace Analysis

def ofGrammar (grammar : Grammar) : Analysis :=
  let first := FirstSets.ofGrammar grammar
  let follow := FollowSets.ofGrammar grammar first
  { first
    follow
    ll1 := Predictive.Parser.ofSets grammar first follow
    slr1 := ShiftReduce.Parser.ofFollow grammar follow }

/-- The class that the outcomes of the two methods make. -/
def grammarClass (analysis : Analysis) : GrammarClass :=
  match analysis.ll1, analysis.slr1 with
  | .ok _, .ok _ => .both
  | .ok _, .error _ => .ll1Only
  | .error _, .ok _ => .slr1Only
  | .error _, .error _ => .neither

/-- The class of the grammar, and the first conflict of each method that fails, one a line. -/
def summary (analysis : Analysis) : String :=
  let conflicts : List String :=
    (match analysis.ll1 with
      | .ok _ => []
      | .error conflict => [conflict.message]) ++
    (match analysis.slr1 with
      | .ok _ => []
      | .error conflict => [conflict.message])
  String.join ((analysis.grammarClass.text :: conflicts).map (· ++ "\n"))

end Analysis

end TableParsing
