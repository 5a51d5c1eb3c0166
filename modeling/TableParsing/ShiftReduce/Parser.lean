import TableParsing.Machine
import TableParsing.ShiftReduce.Table
import TableParsing.Word

/-!
# The SLR(1) parser

The shift-reduce driver keeps a stack of frames: the symbols recognised so far,
each with the state that the automaton is in after it.  The action for the
present state and the next input symbol shifts that symbol, reduces the body of
a production on top of the stack to its left-hand side, or accepts.

Some tables let the driver reduce for ever.  A run that accepts is never longer
than `Parser.stepBound`, so a run is cut off there and its word rejected.
-/

namespace TableParsing.ShiftReduce

/-- An automaton with its tables. -/
structure Parser where
  automaton : Automaton
  table : Table
deriving DecidableEq

/-- A recognised symbol with the state after it. -/
structure Frame where
  symbol : Symbol
  state : Nat
deriving DecidableEq, Repr

/-- What has been recognised and what is left to read. -/
structure Config where
  /-- The recognised symbols, the last one first. -/
  frames : List Frame
  /-- The input to be read; the end marker behind it is not listed. -/
  rest : List Symbol
deriving DecidableEq, Repr

/-- The state on top of a stack; the automaton's first state if the stack is empty. -/
def topState (frames : List Frame) : Nat := (frames.head?.map Frame.state).getD 0

def Config.lookahead (config : Config) : Symbol := config.rest.head?.getD .endMarker

inductive Move where
  | shifted (symbol : Symbol) (state : Nat)
  | reduced (production : Production)
  | accepted
  | blocked (state : Nat) (lookahead : Symbol)
deriving DecidableEq, Repr

def Move.record : Move → Log.Record
  | shifted symbol state => ⟨.trace, "shift " ++ symbol.text ++ " to " ++ toString state⟩
  | reduced production => ⟨.trace, "reduce " ++ production.text⟩
  | accepted => ⟨.trace, "accept"⟩
  | blocked state lookahead =>
    ⟨.trace, "no action in state " ++ toString state ++ " on " ++ lookahead.text⟩

namespace Parser

/-- The parser that given FOLLOW sets make for a grammar, or the first conflict. -/
def ofFollow (grammar : Grammar) (follow : FollowSets) : Except Conflict Parser :=
  let automaton := Automaton.ofGrammar grammar
  (Table.ofFollow automaton follow).map fun table => ⟨automaton, table⟩

/-- Replaces the body of a production on top of the stack by its left-hand side. -/
def reduce (parser : Parser) (production : Production) (config : Config) : Step Config Move :=
  let length := production.body.length
  if length ≤ config.frames.length then
    let below := config.frames.drop length
    match parser.table.goto? (topState below) production.lhs with
    | some state => .next (.reduced production) ⟨⟨production.lhs, state⟩ :: below, config.rest⟩
    | none => .halt (.reduced production) false
  else
    .halt (.reduced production) false

def step (parser : Parser) (config : Config) : Step Config Move :=
  let state := topState config.frames
  let lookahead := config.lookahead
  match parser.table.action? state lookahead with
  | some (.shift target) =>
    .next (.shifted lookahead target) ⟨⟨lookahead, target⟩ :: config.frames, config.rest.tail⟩
  | some (.reduce rule) =>
    match parser.automaton.grammar.production? rule with
    | some production => parser.reduce production config
    | none => .halt (.blocked state lookahead) false
  | some .accept => .halt .accepted true
  | none => .halt (.blocked state lookahead) false

/-- The configuration in which a word is read from its beginning. -/
def start (word : List Symbol) : Config := ⟨[], word⟩

/-- A bound on the steps of an accepting run: a step for each symbol of the word, and one for each
node of its parse tree.  A subtree that yields nothing repeats no nonterminal on a branch, and
neither do the nodes above one another that yield the same part of the word. -/
def stepBound (parser : Parser) (word : List Symbol) : Nat :=
  let nonterminals := parser.automaton.grammar.nonterminals.size
  (2 * word.length + 2) * (nonterminals + 1) *
    Nat.pow (parser.automaton.grammar.longestBody + 2)
      (nonterminals + parser.automaton.states.length + 1)

def acceptsWord (parser : Parser) (word : List Symbol) : Bool :=
  (Machine.verdictWithin parser.step (parser.stepBound word) (start word)).getD false

/-- Whether a list of atoms is a sentence; atoms that are no terminals never make one. -/
def accepts (parser : Parser) (atoms : List String) : Bool :=
  match Word.ofAtoms? atoms with
  | some word => parser.acceptsWord word
  | none => false

/-- The moves that lead to the verdict on a list of atoms. -/
def moves (parser : Parser) (atoms : List String) : List Move :=
  match Word.ofAtoms? atoms with
  | some word => Machine.movesWithin parser.step (parser.stepBound word) (start word)
  | none => []

end Parser

end TableParsing.ShiftReduce
