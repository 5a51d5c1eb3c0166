import TableParsing.Cell
import TableParsing.Sets.Follow

/-!
# The LL(1) table

The predictive table names, for a nonterminal and the next input symbol, the
production to expand the nonterminal with.  A production claims the cells of
its left-hand side under the symbols that can begin its right-hand side and, if
the right-hand side can vanish, under FOLLOW of its left-hand side.

`Table.ofSets` enters the claims production by production.  Two productions that
claim one cell are a conflict, and the first conflict is the answer.
-/

namespace TableParsing.Predictive

/-- The predictive table: the number of a production for each claimed cell. -/
structure Table where
  entries : SortedMap (Cell Symbol) Nat
deriving DecidableEq

/-- Two productions that claim one cell. -/
structure Conflict where
  nonterminal : Symbol
  lookahead : Symbol
  /-- The production that claimed the cell first. -/
  existing : Production
  conflicting : Production
deriving DecidableEq, Repr

def Conflict.message (conflict : Conflict) : String :=
  "LL(1) conflict at M[" ++ conflict.nonterminal.text ++ ", " ++ conflict.lookahead.text ++ "]: " ++
    conflict.existing.text ++ " and " ++ conflict.conflicting.text

namespace Table

/-- The production with which a nonterminal is expanded before a lookahead. -/
def rule? (table : Table) (nonterminal lookahead : Symbol) : Option Nat :=
  table.entries.get? ⟨nonterminal, lookahead⟩

/-- The symbols under which a production claims the cells of its left-hand side. -/
def lookaheads (first : FirstSets) (follow : FollowSets) (production : Production) : List Symbol :=
  let next := first.ofString production.rhs
  (FirstSets.visible next).toList ++
    if .epsilon ∈ next then (follow.setOf production.lhs).toList else []

/-- The claims of all productions, in order. -/
def claims (grammar : Grammar) (first : FirstSets) (follow : FollowSets) :
    List (Cell Symbol × Nat) :=
  grammar.productions.zipIdx.flatMap fun (production, rule) =>
    (lookaheads first follow production).map fun lookahead => (⟨production.lhs, lookahead⟩, rule)

/-- The conflict of two claims to one cell, unless they are of one production. -/
def clash? (grammar : Grammar) (cell : Cell Symbol) (earlier later : Nat) : Option Conflict :=
  if earlier = later then
    none
  else do
    let existing ← grammar.production? earlier
    let conflicting ← grammar.production? later
    return ⟨cell.row, cell.column, existing, conflicting⟩

/-- The table that given FIRST and FOLLOW sets make for a grammar, or its first conflict. -/
def ofSets (grammar : Grammar) (first : FirstSets) (follow : FollowSets) :
    Except Conflict Table :=
  (SortedMap.fill (clash? grammar) (claims grammar first follow) ∅).map Table.mk

def record (table : Table) : Log.Record where
  level := .debug
  text := "LL(1) table has " ++ toString table.entries.size ++ " entries"

end Table

end TableParsing.Predictive
