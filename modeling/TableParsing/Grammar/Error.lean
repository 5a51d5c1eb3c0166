import TableParsing.Symbol
import TableParsing.Text.Quoted

/-!
# What can be wrong with a grammar

The causes for which a production or a list of productions is refused, and
their messages.
-/

namespace TableParsing

/-- Why productions do not make a grammar. -/
inductive GrammarError where
  | noProductions
  /-- The left-hand side is not a nonterminal. -/
  | invalidLhs (lhs : Symbol)
  /-- There is nothing on the right-hand side, not even the empty string's mark. -/
  | emptyRhs (lhs : Symbol)
  | endMarkerInRhs (lhs : Symbol)
  /-- A terminal has the spelling of a symbol of another kind. -/
  | reservedTerminal (terminal : Symbol)
  /-- The empty string stands beside other symbols. -/
  | misplacedEpsilon (lhs : Symbol)
  | invalidStart (start : Symbol)
  | missingStartRule (start : Symbol)
  | undefinedNonterminal (nonterminal : Symbol)
deriving DecidableEq, Repr

def GrammarError.message : GrammarError → String
  | noProductions => "Grammar has no productions"
  | invalidLhs lhs => "Left-hand side must be a nonterminal, found " ++ lhs.text
  | emptyRhs lhs => "Empty right-hand side for " ++ lhs.text
  | endMarkerInRhs lhs => "End marker $ in right-hand side of " ++ lhs.text
  | reservedTerminal terminal =>
    "Terminal " ++ Text.quoted terminal.atom ++ " is spelled like a reserved atom"
  | misplacedEpsilon lhs => "Epsilon must be the only symbol of an alternative of " ++ lhs.text
  | invalidStart start => "Start symbol must be a nonterminal, found " ++ start.text
  | missingStartRule start => "Missing start rule for " ++ start.text
  | undefinedNonterminal nonterminal =>
    "Nonterminal " ++ nonterminal.text ++ " is used but has no productions"

end TableParsing
