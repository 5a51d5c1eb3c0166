import TableParsing.Sets.Follow
import TableParsing.ShiftReduce.Automaton

/-!
# The SLR(1) table

In a state of the automaton an item demands an action: a terminal behind the dot
demands to shift it, the completed start item demands to accept at the end of
the input, and every other completed item demands to reduce its production under
the FOLLOW set of the left-hand side.

`Table.ofFollow` enters the demands state by state and item by item.  Two
different actions in one cell are a conflict, and the first conflict is the
answer.  A shift can only meet a reduction there: two shifts over one terminal
lead to the same state, and the end marker, under which the input is accepted, is
never shifted.
-/

namespace TableParsing.ShiftReduce

/-- What the parser does in a state before an input symbol. -/
inductive Action where
  | shift (state : Nat)
  | reduce (rule : Nat)
  | accept
deriving DecidableEq, Repr

/-- The short form of an action in tables. -/
def Action.text : Action → String
  | shift state => "s" ++ toString state
  | reduce rule => "r" ++ toString rule
  | accept => "acc"

/-- Two actions that one cell is asked to hold. -/
inductive Conflict where
  | shiftReduce (state : Nat) (lookahead : Symbol) (target : Nat) (production : Production)
  | reduceReduce (state : Nat) (lookahead : Symbol) (first second : Production)
  /-- The lookahead is the end marker. -/
  | acceptReduce (state : Nat) (production : Production)
deriving DecidableEq, Repr

namespace Conflict

def state : Conflict → Nat
  | shiftReduce state _ _ _ => state
  | reduceReduce state _ _ _ => state
  | acceptReduce state _ => state

def lookahead : Conflict → Symbol
  | shiftReduce _ lookahead _ _ => lookahead
  | reduceReduce _ lookahead _ _ => lookahead
  | acceptReduce _ _ => .endMarker

def message (conflict : Conflict) : String :=
  let place := toString conflict.state ++ " on " ++ conflict.lookahead.text ++ ": "
  match conflict with
  | shiftReduce _ _ target production =>
    "Shift-reduce conflict in state " ++ place ++ "shift to " ++ toString target ++
      " or reduce " ++ production.text
  | reduceReduce _ _ first second =>
    "Reduce-reduce conflict in state " ++ place ++ "reduce " ++ first.text ++
      " or reduce " ++ second.text
  | acceptReduce _ production =>
    "Accept-reduce conflict in state " ++ place ++ "accept or reduce " ++ production.text

end Conflict

/-- The tables of a shift-reduce parser. -/
structure Table where
  /-- The action in a state before an input symbol. -/
  actions : SortedMap (Cell Nat) Action
  /-- The state to go on in after a reduction to a nonterminal. -/
  gotos : SortedMap (Cell Nat) Nat
deriving DecidableEq

namespace Table

def action? (table : Table) (state : Nat) (lookahead : Symbol) : Option Action :=
  table.actions.get? ⟨state, lookahead⟩

def goto? (table : Table) (state : Nat) (nonterminal : Symbol) : Option Nat :=
  table.gotos.get? ⟨state, nonterminal⟩

/-- What an item of a state demands. -/
def itemDemands (automaton : Automaton) (follow : FollowSets) (state : Nat) (item : Item) :
    List (Cell Nat × Action) :=
  match item.next? automaton.grammar with
  | some symbol =>
    if symbol.isTerminal then
      match automaton.transition? state symbol with
      | some target => [(⟨state, symbol⟩, .shift target)]
      | none => []
    else []
  | none =>
    if item.rule = automaton.startRule then
      [(⟨state, .endMarker⟩, .accept)]
    else
      match automaton.grammar.production? item.rule with
      | some production =>
        (follow.setOf production.lhs).toList.map fun lookahead =>
          (⟨state, lookahead⟩, .reduce item.rule)
      | none => []

/-- The demands of all items of all states, in order. -/
def demands (automaton : Automaton) (follow : FollowSets) : List (Cell Nat × Action) :=
  automaton.states.zipIdx.flatMap fun (items, state) =>
    items.toList.flatMap (itemDemands automaton follow state)

/-- The conflict of two actions demanded of one cell. -/
def clash? (grammar : Grammar) (cell : Cell Nat) : (earlier later : Action) → Option Conflict
  | .shift target, .reduce rule | .reduce rule, .shift target =>
    (grammar.production? rule).map (.shiftReduce cell.row cell.column target)
  | .reduce earlier, .reduce later =>
    if earlier = later then
      none
    else do
      let first ← grammar.production? earlier
      let second ← grammar.production? later
      return .reduceReduce cell.row cell.column first second
  | .accept, .reduce rule | .reduce rule, .accept =>
    (grammar.production? rule).map (.acceptReduce cell.row)
  | _, _ => none

/-- The transitions over nonterminals. -/
def nonterminalTransitions (automaton : Automaton) : SortedMap (Cell Nat) Nat :=
  .ofList (automaton.transitions.toList.filter fun entry => entry.1.column.isNonterminal)

/-- The table that given FOLLOW sets make for an automaton, or its first conflict. -/
def ofFollow (automaton : Automaton) (follow : FollowSets) : Except Conflict Table :=
  (SortedMap.fill (clash? automaton.grammar) (demands automaton follow) ∅).map fun actions =>
    ⟨actions, nonterminalTransitions automaton⟩

def record (table : Table) : Log.Record where
  level := .debug
  text := "SLR(1) table has " ++ toString table.actions.size ++ " actions and " ++
    toString table.gotos.size ++ " gotos"

end Table

end TableParsing.ShiftReduce
