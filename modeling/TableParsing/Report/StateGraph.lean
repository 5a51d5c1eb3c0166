import TableParsing.ShiftReduce.Automaton

/-!
# The automaton as a graph

The automaton in the graph description language of Graphviz: a node for each
state, drawn as a table of its items with the completed ones underlined, and an
edge for each transition.

Item texts stand in HTML-like labels and symbols in quoted labels, so either kind
of text is escaped for its place.
-/

namespace TableParsing.Report

/-- A character as it stands in an HTML-like label. -/
def escapeHtmlChar : Char → List Char
  | '&' => "&amp;".toList
  | '<' => "&lt;".toList
  | '>' => "&gt;".toList
  | other => [other]

/-- A text for an HTML-like label. -/
def escapeHtml (text : String) : String := String.ofList (text.toList.flatMap escapeHtmlChar)

/-- A character as it stands in a quoted label. -/
def escapeLabelChar : Char → List Char
  | '\\' => ['\\', '\\']
  | '"' => ['\\', '"']
  | other => [other]

/-- A text for a quoted label. -/
def escapeLabel (text : String) : String := String.ofList (text.toList.flatMap escapeLabelChar)

def itemRow (grammar : Grammar) (item : ShiftReduce.Item) : String :=
  let text := escapeHtml (item.text grammar)
  let shown := if item.isComplete grammar then "<U>" ++ text ++ "</U>" else text
  "      <TR><TD>" ++ shown ++ "</TD></TR>"

def stateNode (grammar : Grammar) (items : ShiftReduce.ItemSet) (state : Nat) : String :=
  "\n".intercalate
    ["  State" ++ toString state ++ " [shape=plain label=<",
      "    <TABLE BORDER=\"0\" CELLBORDER=\"1\" CELLSPACING=\"0\">",
      "      <TR><TD><B>State #" ++ toString state ++ "</B></TD></TR>",
      "\n".intercalate (items.toList.map (itemRow grammar)),
      "    </TABLE>",
      "  >];"]

def transitionEdge (transition : Cell Nat × Nat) : String :=
  "  State" ++ toString transition.1.row ++ " -> State" ++ toString transition.2 ++
    " [label=\"" ++ escapeLabel transition.1.column.text ++ "\"];"

/-- The description of an automaton's graph, without a line feed at its end. -/
def stateGraph (automaton : ShiftReduce.Automaton) : String :=
  "\n".intercalate
    (["digraph lr0_states \x7b"] ++
      (automaton.states.zipIdx.map fun (items, state) => stateNode automaton.grammar items state) ++
      automaton.transitions.toList.map transitionEdge ++ ["\x7d"])

end TableParsing.Report
