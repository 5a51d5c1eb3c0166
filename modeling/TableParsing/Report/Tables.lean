import TableParsing.Analysis
import TableParsing.Report.Grid

/-!
# The tables of an analysis

The FIRST and FOLLOW sets and the parse tables as grids.  The columns of the
parse tables are the terminals and the end marker, and for the shift-reduce
table also the nonterminals of the grammar.
-/

namespace TableParsing.Report

/-- The lookaheads that have a column: the terminals, then the end marker. -/
def lookaheadColumns (grammar : Grammar) : List Symbol := grammar.terminals.toList ++ [.endMarker]

/-- The FIRST and FOLLOW set of each nonterminal. -/
def setsGrid (grammar : Grammar) (analysis : Analysis) : Grid where
  rows := ["Nonterminal", "FIRST", "FOLLOW"] ::
    grammar.nonterminals.toList.map fun nonterminal =>
      [nonterminal.text, Symbol.listText (analysis.first.setOf nonterminal).toList,
        Symbol.listText (analysis.follow.setOf nonterminal).toList]

/-- What the cell of a nonterminal and a lookahead shows: the predicted production. -/
def predictionText (parser : Predictive.Parser) (nonterminal lookahead : Symbol) : String :=
  (parser.predict? nonterminal lookahead).elim "" Production.text

def ll1Grid (parser : Predictive.Parser) : Grid :=
  let lookaheads := lookaheadColumns parser.grammar
  { rows := ("" :: lookaheads.map Symbol.text) ::
      parser.grammar.nonterminals.toList.map fun nonterminal =>
        nonterminal.text :: lookaheads.map (predictionText parser nonterminal) }

/-- The nonterminals that have a column: all but the start symbol of the augmented grammar. -/
def gotoColumns (grammar : Grammar) : List Symbol :=
  grammar.nonterminals.toList.filter fun nonterminal => nonterminal != grammar.start

def actionText (parser : ShiftReduce.Parser) (state : Nat) (lookahead : Symbol) : String :=
  (parser.table.action? state lookahead).elim "" ShiftReduce.Action.text

def gotoText (parser : ShiftReduce.Parser) (state : Nat) (nonterminal : Symbol) : String :=
  (parser.table.goto? state nonterminal).elim "" toString

/-- The items of a state, one a line. -/
def itemsText (grammar : Grammar) (items : ShiftReduce.ItemSet) : String :=
  "\n".intercalate (items.toList.map fun item => item.text grammar)

def slr1Grid (parser : ShiftReduce.Parser) : Grid :=
  let grammar := parser.automaton.grammar
  let lookaheads := lookaheadColumns grammar
  let nonterminals := gotoColumns grammar
  { rows := (["#", "LR(0) item closure"] ++ lookaheads.map Symbol.text ++
        nonterminals.map Symbol.text) ::
      parser.automaton.states.zipIdx.map fun (items, state) =>
        [toString state, itemsText grammar items] ++ lookaheads.map (actionText parser state) ++
          nonterminals.map (gotoText parser state) }

end TableParsing.Report
