import TableParsing.Grammar.Production
import TableParsing.Sorted.Map

/-!
# Grammars

A `Grammar` is a start symbol with a list of productions that satisfy
`WellFormed`; every value of the type does, so no later stage meets a reserved
spelling or a nonterminal without productions.  `Grammar.check` makes one from
arbitrary productions or names the first fault.

The sets of terminals and nonterminals and the index by left-hand side are
functions of the productions.
-/

namespace TableParsing

/-- The conditions on the start symbol and the productions of a grammar. -/
structure WellFormed (start : Symbol) (productions : List Production) : Prop where
  valid : ∀ production ∈ productions, production.Valid
  start_defined : ∃ production ∈ productions, production.lhs = start
  nonterminals_defined : ∀ production ∈ productions, ∀ symbol ∈ production.rhs,
    symbol.isNonterminal = true → ∃ definition ∈ productions, definition.lhs = symbol

/-- A context-free grammar. -/
structure Grammar where
  start : Symbol
  productions : List Production
  wellFormed : WellFormed start productions
deriving DecidableEq

namespace Grammar

/-! ## Making a grammar -/

/-- Whether a symbol is the left-hand side of some production. -/
def isDefinedIn (productions : List Production) (symbol : Symbol) : Bool :=
  productions.any fun production => production.lhs == symbol

/-- The first fault of a start symbol and productions: the kind of the start symbol, an empty list,
a faulty production, a start symbol without productions, an undefined nonterminal. -/
def fault? (start : Symbol) (productions : List Production) : Option GrammarError :=
  if !start.isNonterminal then
    some (.invalidStart start)
  else if productions.isEmpty then
    some .noProductions
  else
    match productions.findSome? Production.fault? with
    | some error => some error
    | none =>
      if !isDefinedIn productions start then
        some (.missingStartRule start)
      else
        ((productions.flatMap (·.rhs)).find? fun symbol =>
          symbol.isNonterminal && !isDefinedIn productions symbol).map .undefinedNonterminal

theorem isDefinedIn_iff {productions : List Production} {symbol : Symbol} :
    isDefinedIn productions symbol = true ↔ ∃ production ∈ productions, production.lhs = symbol := by
  simp [isDefinedIn]

theorem wellFormed_of_fault?_eq_none {start : Symbol} {productions : List Production}
    (h : fault? start productions = none) : WellFormed start productions := by
  unfold fault? at h
  split at h
  · cases h
  · split at h
    · cases h
    · split at h
      · cases h
      · rename_i valid
        split at h
        · cases h
        · rename_i defined
          constructor
          · intro production hmem
            exact Production.valid_of_fault?_eq_none
              (List.findSome?_eq_none_iff.mp valid production hmem)
          · exact isDefinedIn_iff.mp (by simpa using defined)
          · intro production hmem symbol hsymbol kind
            have absent := List.find?_eq_none.mp (Option.map_eq_none_iff.mp h) symbol
              (List.mem_flatMap.mpr ⟨production, hmem, hsymbol⟩)
            exact isDefinedIn_iff.mp (by simpa [kind] using absent)

/-- The grammar with this start symbol and these productions, unless they have a fault. -/
def check (start : Symbol) (productions : List Production) : Except GrammarError Grammar :=
  match h : fault? start productions with
  | some error => .error error
  | none => .ok ⟨start, productions, wellFormed_of_fault?_eq_none h⟩

/-- The start symbol of a grammar that names none. -/
def defaultStart : Symbol := .nonterminal "S"

/-- The grammar with these productions and the default start symbol. -/
def checkDefault (productions : List Production) : Except GrammarError Grammar :=
  check defaultStart productions

/-! ## Reading a grammar -/

variable (grammar : Grammar)

/-- The left-hand sides. -/
def nonterminals : SortedSet Symbol := .ofList (grammar.productions.map (·.lhs))

/-- The terminals of the right-hand sides. -/
def terminals : SortedSet Symbol :=
  .ofList ((grammar.productions.flatMap (·.rhs)).filter Symbol.isTerminal)

/-- The numbers of the productions of a symbol, in increasing order. -/
def rulesFor (symbol : Symbol) : List Nat :=
  (grammar.productions.zipIdx.filter fun (production, _) => production.lhs == symbol).map (·.2)

def production? (rule : Nat) : Option Production := grammar.productions[rule]?

/-- The body of the production with a number; empty if there is none. -/
def body (rule : Nat) : List Symbol :=
  match grammar.production? rule with
  | some production => production.body
  | none => []

def alternatives (symbol : Symbol) : List (List Symbol) :=
  (grammar.rulesFor symbol).map grammar.body

def longestBody : Nat :=
  (grammar.productions.map fun production => production.body.length).foldl max 0

/-- The productions, one a line. -/
def text : String := "\n".intercalate (grammar.productions.map Production.text)

theorem lt_of_mem_rulesFor {symbol : Symbol} {rule : Nat} (h : rule ∈ grammar.rulesFor symbol) :
    rule < grammar.productions.length := by
  obtain ⟨⟨production, index⟩, hmem, rfl⟩ := List.mem_map.mp h
  have := List.mem_zipIdx (List.mem_filter.mp hmem).1
  simp at this
  exact this.1

end Grammar

end TableParsing
