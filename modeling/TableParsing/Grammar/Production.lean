import TableParsing.Grammar.Error

/-!
# Productions

A production has a left-hand side and a right-hand side; the empty alternative
is the right-hand side that holds the empty string's mark alone, and `body` is
the right-hand side without that mark.

Any symbols can be put on either side.  `Production.Valid` says which
productions may stand in a grammar, and `Production.fault?` finds the first
reason why one may not.
-/

namespace TableParsing

/-- A rule that replaces its left-hand side by its right-hand side. -/
structure Production where
  lhs : Symbol
  rhs : List Symbol
deriving DecidableEq, Repr

namespace Production

/-- The empty alternative of a nonterminal. -/
def epsilon (lhs : Symbol) : Production := ⟨lhs, [.epsilon]⟩

def isEpsilon (production : Production) : Bool := production.rhs == [.epsilon]

/-- The symbols that take the place of the left-hand side. -/
def body (production : Production) : List Symbol :=
  if production.isEpsilon then [] else production.rhs

/-- The left-hand side, an arrow and the symbols of the right-hand side. -/
def text (production : Production) : String :=
  production.lhs.text ++ " →" ++ String.join (production.rhs.map fun symbol => " " ++ symbol.text)

/-- Whether a terminal is spelled like a symbol of another kind. -/
def isReserved (symbol : Symbol) : Bool :=
  symbol.isTerminal && !(Symbol.classify symbol.atom).isTerminal

/-- The conditions on a production of a grammar. -/
structure Valid (production : Production) : Prop where
  lhs_isNonterminal : production.lhs.isNonterminal = true
  rhs_ne_nil : production.rhs ≠ []
  endMarker_not_mem : Symbol.endMarker ∉ production.rhs
  not_isReserved : ∀ symbol ∈ production.rhs, isReserved symbol = false
  epsilon_alone : Symbol.epsilon ∈ production.rhs → production.rhs = [.epsilon]

/-- The first condition that a production violates, in the order of `Valid`. -/
def fault? (production : Production) : Option GrammarError :=
  if !production.lhs.isNonterminal then
    some (.invalidLhs production.lhs)
  else if production.rhs.isEmpty then
    some (.emptyRhs production.lhs)
  else if production.rhs.contains .endMarker then
    some (.endMarkerInRhs production.lhs)
  else
    match production.rhs.find? isReserved with
    | some terminal => some (.reservedTerminal terminal)
    | none =>
      if 1 < production.rhs.length && production.rhs.contains .epsilon then
        some (.misplacedEpsilon production.lhs)
      else
        none

/-- The production with these two sides, if it may stand in a grammar. -/
def make (lhs : Symbol) (rhs : List Symbol) : Except GrammarError Production :=
  match fault? ⟨lhs, rhs⟩ with
  | some error => .error error
  | none => .ok ⟨lhs, rhs⟩

theorem valid_of_fault?_eq_none {production : Production} (h : production.fault? = none) :
    production.Valid := by
  unfold fault? at h
  split at h
  · cases h
  · split at h
    · cases h
    · split at h
      · cases h
      · split at h
        · cases h
        · rename_i noneReserved
          split at h
          · cases h
          · rename_i alone
            constructor
            · simp_all
            · simp_all
            · simp_all
            · intro symbol hmem
              have := List.find?_eq_none.mp noneReserved symbol hmem
              simpa using this
            · intro hmem
              have short : ¬ 1 < production.rhs.length := by simp_all
              match hrhs : production.rhs with
              | [] => rw [hrhs] at hmem; cases hmem
              | [symbol] => rw [hrhs] at hmem; simp_all
              | first :: second :: rest =>
                rw [hrhs] at short
                exact absurd (by simp) short

end Production

end TableParsing
