import TableParsing.Grammar.Basic

/-!
# Searching for derivations

A bounded breadth-first search over leftmost derivations, and the enumeration of
all strings up to a length.  Both serve to compare the computed sets and the
parsers with what a grammar derives.

The search counts the forms that it expands in a machine word, before it compares
the count with the budget, which is a word too.  What comes after the largest word
is left open (`Overflow`).
-/

namespace TableParsing.Search

/-- What becomes of a count that leaves the range of its word: it goes on from zero, or the run is
broken off. -/
inductive Overflow where
  | wraps
  | aborts
deriving DecidableEq, Repr

/-- The forms to be looked at, those of `waiting` and behind them those of `found` in reverse, and how
many forms were expanded. -/
structure Queue (width : Nat) where
  waiting : List (List Symbol)
  found : List (List Symbol)
  expanded : BitVec width
deriving DecidableEq, Repr

/-- What a round of the search comes to. -/
inductive Round (width : Nat) where
  | next (queue : Queue width)
  | answer (found : Bool)
  | aborted
deriving DecidableEq, Repr

variable {width : Nat}

/-- Takes the first form out of a queue. -/
def Queue.pop? (queue : Queue width) : Option (List Symbol × Queue width) :=
  match queue.waiting with
  | form :: waiting => some (form, ⟨waiting, queue.found, queue.expanded⟩)
  | [] =>
    match queue.found.reverse with
    | form :: waiting => some (form, ⟨waiting, [], queue.expanded⟩)
    | [] => none

/-- The queue that holds one form. -/
def Queue.start (form : List Symbol) : Queue width := ⟨[form], [], 0⟩

/-- A count that is raised by one; none if the run is broken off. -/
def raise? (overflow : Overflow) (count : BitVec width) : Option (BitVec width) :=
  if overflow = .aborts ∧ count = .allOnes width then none else some (count + 1)

/-- The forms that one leftmost step leads to from `symbol :: rest`, as far as they are no longer than
`longest`. -/
def expansions (grammar : Grammar) (longest : Nat) (symbol : Symbol) (rest : List Symbol) :
    List (List Symbol) :=
  ((grammar.alternatives symbol).map (· ++ rest)).filter fun form => form.length ≤ longest

section Loop

variable (overflow : Overflow) (grammar : Grammar) (terminal : Symbol) (longest : Nat)
  (budget : BitVec width)

/-- Puts the expansions of a form that was taken out at the end of a queue, unless the budget is
spent. -/
def expand (symbol : Symbol) (rest : List Symbol) (queue : Queue width) : Round width :=
  match raise? overflow queue.expanded with
  | none => .aborted
  | some expanded =>
    if budget < expanded then .answer false
    else
      .next ⟨queue.waiting, (expansions grammar longest symbol rest).reverse ++ queue.found, expanded⟩

/-- Looks at the first form of a queue, whether it begins with `terminal`. -/
def round (queue : Queue width) : Round width :=
  match queue.pop? with
  | none => .answer false
  | some ([], left) => .next left
  | some (symbol :: rest, left) =>
    if symbol.isTerminal then
      if symbol = terminal then .answer true else .next left
    else expand overflow grammar longest budget symbol rest left

/-- The answer that is found in at most `rounds` rounds; none if there is no answer up to there. -/
def answerWithin : (rounds : Nat) → Queue width → Option Bool
  | 0, _ => none
  | rounds + 1, queue =>
    match round overflow grammar terminal longest budget queue with
    | .answer found => some found
    | .next following => answerWithin rounds following
    | .aborted => none

end Loop

/-- Whether a leftmost derivation through forms no longer than `longest`, found within `budget`
expansions, leads from a form to one that begins with a terminal.  The rounds are enough for every
budget but the largest word, with which there may be no answer. -/
def derivesPrefix (overflow : Overflow) (grammar : Grammar) (form : List Symbol) (terminal : Symbol)
    (longest : Nat) (budget : BitVec width) : Option Bool :=
  answerWithin overflow grammar terminal longest budget
    (budget.toNat * grammar.productions.length + 2) (.start form)

/-! ## All strings -/

/-- The strings of a length over some characters, in the order of the characters. -/
def stringsOfLength (characters : List Char) : Nat → List (List Char)
  | 0 => [[]]
  | length + 1 =>
    (stringsOfLength characters length).flatMap fun string =>
      characters.map fun character => string ++ [character]

/-- The strings up to a length over some characters, the shorter ones first. -/
def stringsUpTo (characters : List Char) (longest : Nat) : List String :=
  ((List.range (longest + 1)).flatMap (stringsOfLength characters)).map String.ofList

end TableParsing.Search
