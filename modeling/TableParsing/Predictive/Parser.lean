import TableParsing.Machine
import TableParsing.Predictive.Table
import TableParsing.Word

/-!
# The LL(1) parser

The predictive driver keeps a stack of symbols that are still to be read.  A
symbol on top that is the next input symbol is consumed; a nonterminal is
replaced by the body of the production that the table predicts; anything else
rejects the input.  Below the stack and behind the input stands the end marker,
and the input is accepted when both are reached together.

A table made from foreign sets may predict for ever without reading.  The driver
therefore keeps the pending expansions of the present input position, each with
the height of the stack below it, and rejects an input when a nonterminal comes
up again inside its own pending expansion.  `step` is the driver without this
check and `guardedStep` the driver with it.
-/

namespace TableParsing.Predictive

/-- A grammar with its predictive table. -/
structure Parser where
  grammar : Grammar
  table : Table
deriving DecidableEq

/-! ## The plain driver -/

/-- What is left to match and to read. -/
structure Config where
  /-- The symbols to be matched, the next one first; the end marker below them is not listed. -/
  stack : List Symbol
  /-- The input to be read; the end marker behind it is not listed. -/
  rest : List Symbol
deriving DecidableEq, Repr

def Config.lookahead (config : Config) : Symbol := config.rest.head?.getD .endMarker

inductive Move where
  | matched (symbol : Symbol)
  | expanded (production : Production)
  | mismatched (top lookahead : Symbol)
  | unpredicted (nonterminal lookahead : Symbol)
  /-- The nonterminal came up again inside its own pending expansion. -/
  | recurring (nonterminal lookahead : Symbol)
deriving DecidableEq, Repr

def Move.record : Move → Log.Record
  | matched symbol => ⟨.trace, "match " ++ symbol.text⟩
  | expanded production => ⟨.trace, "expand " ++ production.text⟩
  | mismatched top lookahead => ⟨.trace, "expected " ++ top.text ++ ", found " ++ lookahead.text⟩
  | unpredicted nonterminal lookahead =>
    ⟨.trace, "no entry at M[" ++ nonterminal.text ++ ", " ++ lookahead.text ++ "]"⟩
  | recurring nonterminal lookahead =>
    ⟨.warn, nonterminal.text ++ " expands to itself without consuming " ++ lookahead.text ++
      ", rejecting"⟩

namespace Parser

/-- The parser that given FIRST and FOLLOW sets make for a grammar, or the first conflict. -/
def ofSets (grammar : Grammar) (first : FirstSets) (follow : FollowSets) :
    Except Conflict Parser :=
  (Table.ofSets grammar first follow).map fun table => ⟨grammar, table⟩

/-- The production with which a nonterminal is expanded before a lookahead. -/
def predict? (parser : Parser) (nonterminal lookahead : Symbol) : Option Production :=
  (parser.table.rule? nonterminal lookahead).bind parser.grammar.production?

/-- One step of the plain driver. -/
def step (parser : Parser) (config : Config) : Step Config Move :=
  match config.stack with
  | [] =>
    if config.lookahead = .endMarker then .halt (.matched .endMarker) true
    else .halt (.mismatched .endMarker config.lookahead) false
  | top :: below =>
    if top = config.lookahead then
      .next (.matched top) ⟨below, config.rest.tail⟩
    else if top.isNonterminal then
      match parser.predict? top config.lookahead with
      | some production => .next (.expanded production) ⟨production.body ++ below, config.rest⟩
      | none => .halt (.unpredicted top config.lookahead) false
    else
      .halt (.mismatched top config.lookahead) false

/-- The configuration in which a word is read from its beginning. -/
def start (parser : Parser) (word : List Symbol) : Config := ⟨[parser.grammar.start], word⟩

end Parser

/-! ## Pending expansions -/

/-- An expansion at the present input position: its nonterminal and the height of the stack below. -/
structure Expansion where
  nonterminal : Symbol
  below : Nat
deriving DecidableEq, Repr

/-- The expansions, the latest first, that are still pending when the stack has come down to a
height: those that began at this height or lower. -/
def pendingAt (height : Nat) (expansions : List Expansion) : List Expansion :=
  expansions.dropWhile fun expansion => height < expansion.below

/-- Adds the expansion of a nonterminal at a height; none if the nonterminal is pending already. -/
def expand? (expansions : List Expansion) (nonterminal : Symbol) (height : Nat) :
    Option (List Expansion) :=
  let pending := pendingAt height expansions
  if pending.any fun expansion => expansion.nonterminal == nonterminal then none
  else some (⟨nonterminal, height⟩ :: pending)

/-- A configuration with the expansions that have not come to read anything. -/
structure Guarded where
  config : Config
  expansions : List Expansion
deriving DecidableEq, Repr

namespace Parser

/-! ## The guarded driver -/

/-- One step of the driver with the check for recurring nonterminals. -/
def guardedStep (parser : Parser) (state : Guarded) : Step Guarded Move :=
  match state.config.stack with
  | [] => (parser.step state.config).mapState (⟨·, []⟩)
  | top :: below =>
    if top ≠ state.config.lookahead ∧ top.isNonterminal then
      match expand? state.expansions top below.length with
      | none => .halt (.recurring top state.config.lookahead) false
      | some expansions => (parser.step state.config).mapState (⟨·, expansions⟩)
    else
      (parser.step state.config).mapState (⟨·, []⟩)

/-- A bound on the steps of the guarded driver on a word.  At one input position the pending
expansions are of different nonterminals, so that a symbol on the stack leads to at most
as many steps as `longest body + 1` to the power of `nonterminals`, and reading a symbol leaves at most
`nonterminals * longest body` new symbols behind. -/
def stepBound (parser : Parser) (word : List Symbol) : Nat :=
  let nonterminals := parser.grammar.nonterminals.size
  (word.length + 1) * (nonterminals + 1) *
    Nat.pow (parser.grammar.longestBody + 1) (nonterminals + 1) + 1

def acceptsWord (parser : Parser) (word : List Symbol) : Bool :=
  (Machine.verdictWithin parser.guardedStep (parser.stepBound word)
    ⟨parser.start word, []⟩).getD false

/-- Whether a list of atoms is a sentence; atoms that are no terminals never make one. -/
def accepts (parser : Parser) (atoms : List String) : Bool :=
  match Word.ofAtoms? atoms with
  | some word => parser.acceptsWord word
  | none => false

/-- The moves that lead to the verdict on a list of atoms. -/
def moves (parser : Parser) (atoms : List String) : List Move :=
  match Word.ofAtoms? atoms with
  | some word =>
    Machine.movesWithin parser.guardedStep (parser.stepBound word) ⟨parser.start word, []⟩
  | none => []

end Parser

end TableParsing.Predictive
