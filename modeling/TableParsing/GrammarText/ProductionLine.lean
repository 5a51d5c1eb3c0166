import TableParsing.Combinators.Basic
import TableParsing.Grammar.Production
import TableParsing.Text.WhiteSpace

/-!
# Production lines

A production line is a nonterminal, an arrow `->` and the alternatives of the
nonterminal, separated by blanks.  An alternative is a run of characters that
are not white space: each character is one symbol, and `e` alone is the empty
alternative.  Blanks (spaces and tabs) may stand before every part and at the
end.

The parser of a line (`productionLine`) is put together from combinators, which may
be those of any library.
-/

namespace TableParsing.GrammarText

/-- A nonterminal with its alternatives, as they are spelled. -/
structure ProductionLine where
  lhs : Char
  alternatives : List String
deriving DecidableEq, Repr

/-! ## The parser of a line -/

/-- Whether a character separates the parts of a line. -/
def isBlank (character : Char) : Bool := character == ' ' || character == '\t'

/-- Whether a character can stand in an alternative. -/
def isSymbolChar (character : Char) : Bool := !Text.isWhiteSpace character

section Parser

variable (library : Combinators)

def nonterminal : library.Parser Char :=
  library.expected (library.satisfy Char.isUpper) "nonterminal"

def arrow : library.Parser Unit :=
  library.expected
    (library.map (fun _ => ()) (library.pair (library.satisfy (· == '-')) (library.satisfy (· == '>'))))
    "`->`"

def alternative : library.Parser String :=
  library.expected (library.many1 (library.satisfy isSymbolChar)) "alternative"

def blank : library.Parser Char := library.satisfy isBlank

def blanks : library.Parser Unit := library.skipMany (blank library)

def productionLine : library.Parser ProductionLine :=
  library.map (fun parts => ⟨parts.1, parts.2.2.1⟩) <| library.quadruple
    (library.skipThen (blanks library) (nonterminal library))
    (library.skipThen (blanks library) (arrow library))
    (library.skipThen (blanks library)
      (library.sepEndBy1 (alternative library) (library.skipMany1 (blank library))))
    library.eof

end Parser

/-- The characters of a line without the line feeds and carriage returns at its end. -/
def bodyOf (line : String) : List Char :=
  Text.dropWhileEnd (fun character => character == '\n' || character == '\r') line.toList

/-! ## Alternatives -/

/-- The production that an alternative spells. -/
def productionOf (lhs : Char) (alternative : String) : Except GrammarError Production :=
  if alternative = "e" then Production.make (.ofChar lhs) [.epsilon]
  else Production.make (.ofChar lhs) (alternative.toList.map Symbol.ofChar)

/-- The spelling of a production's right-hand side. -/
def alternativeOf (production : Production) : String :=
  if production.isEpsilon then "e" else String.join (production.rhs.map Symbol.atom)

/-- The productions of a line, or the error of the first alternative that is none. -/
def ProductionLine.productions (line : ProductionLine) : Except GrammarError (List Production) :=
  line.alternatives.mapM (productionOf line.lhs)

end TableParsing.GrammarText
