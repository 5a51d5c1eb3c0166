import TableParsing.Grammar.Basic
import TableParsing.GrammarText.ProductionLine

/-!
# Writing grammars

A grammar is written as one line for each left-hand side, in the order in which
the left-hand sides first appear, with all its alternatives in order; the number
of these lines goes before them.
-/

namespace TableParsing.GrammarText

/-- The left-hand sides of productions in the order of their first appearance. -/
def heads (productions : List Production) : List Symbol :=
  (productions.map (·.lhs)).eraseDups

/-- The line of one left-hand side. -/
def lineOf (productions : List Production) (lhs : Symbol) : String :=
  let alternatives := (productions.filter fun production => production.lhs == lhs).map alternativeOf
  lhs.atom ++ " -> " ++ " ".intercalate alternatives ++ "\n"

def write (grammar : Grammar) : String :=
  let heads := heads grammar.productions
  toString heads.length ++ "\n" ++ String.join (heads.map (lineOf grammar.productions))

end TableParsing.GrammarText
