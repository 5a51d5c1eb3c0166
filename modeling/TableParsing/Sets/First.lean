import TableParsing.Grammar.Basic
import TableParsing.Log
import TableParsing.Sets.Inclusion

/-!
# FIRST sets

FIRST of a symbol holds the terminals with which a string derived from it can
begin, and the empty string's mark if it derives the empty string.
`FirstSets.ofString` extends the sets to strings of symbols;
`FirstSets.ofGrammar` computes the least family in which the set of every
left-hand side includes FIRST of its right-hand sides.

The sets can be asked about, and saturated with, any grammar, also one they were
not computed from.
-/

namespace TableParsing

/-- A set of symbols for each terminal and nonterminal. -/
structure FirstSets where
  family : SymbolFamily
deriving DecidableEq

namespace FirstSets

/-! ## Reading -/

def get? (first : FirstSets) (symbol : Symbol) : Option SymbolSet := first.family.get? symbol

/-- The set of a symbol; empty if it has none. -/
def setOf (first : FirstSets) (symbol : Symbol) : SymbolSet := first.family.setOf symbol

/-- Whether the sets let a symbol derive the empty string. -/
def isNullable (first : FirstSets) (symbol : Symbol) : Bool :=
  symbol == .epsilon || decide (Symbol.epsilon ∈ first.setOf symbol)

/-- The members of a set that are symbols of an input: all but the empty string's mark. -/
def visible (set : SymbolSet) : SymbolSet := set.filter fun symbol => symbol != .epsilon

/-- FIRST of a string: its symbols count up to the first one that cannot vanish. -/
def ofString (first : FirstSets) : List Symbol → SymbolSet
  | [] => {.epsilon}
  | .epsilon :: rest => first.ofString rest
  | .terminal atom :: _ => {.terminal atom}
  | .endMarker :: _ => {.endMarker}
  | .nonterminal atom :: rest =>
    let own := first.setOf (.nonterminal atom)
    if .epsilon ∈ own then visible own ∪ first.ofString rest else visible own

/-! ## Computing -/

/-- The demand of a production: FIRST of the left-hand side includes FIRST of the right-hand side. -/
def inclusion (production : Production) : Inclusion where
  target := production.lhs
  source family := ofString ⟨family⟩ production.rhs

/-- The symbols that the productions of a grammar bring into FIRST sets. -/
def alphabet (grammar : Grammar) : SymbolSet :=
  .ofList (.epsilon :: grammar.productions.flatMap (·.rhs))

theorem mem_ofString {first : FirstSets} {symbols : List Symbol} {member : Symbol}
    (h : member ∈ first.ofString symbols) :
    member = .epsilon ∨ member ∈ symbols ∨ member ∈ first.family.members := by
  fun_induction first.ofString symbols with
  | case1 => simp_all
  | case2 rest ih => grind
  | case3 => simp_all
  | case4 => simp_all
  | case5 atom rest own nullable ih =>
    simp only [SortedSet.mem_union, visible, SortedSet.mem_filter] at h
    rcases h with ⟨h, _⟩ | h
    · exact .inr (.inr (SymbolFamily.mem_members.mpr ⟨_, h⟩))
    · grind
  | case6 atom rest own nullable =>
    simp only [visible, SortedSet.mem_filter] at h
    exact .inr (.inr (SymbolFamily.mem_members.mpr ⟨_, h.1⟩))

theorem inclusion_within {grammar : Grammar} :
    ∀ demand ∈ grammar.productions.map inclusion, demand.Within (alphabet grammar) := by
  intro demand hdemand family member h
  obtain ⟨production, hproduction, rfl⟩ := List.mem_map.mp hdemand
  simp only [SortedSet.mem_union, alphabet, SortedSet.mem_ofList, List.mem_cons, List.mem_flatMap]
  rcases mem_ofString h with h | h | h
  · exact .inr (.inl h)
  · exact .inr (.inr ⟨production, hproduction, h⟩)
  · exact .inl h

/-- The passes over the productions of a grammar. -/
def growth (grammar : Grammar) : Growth SymbolFamily :=
  Inclusion.growth (alphabet grammar) (grammar.productions.map inclusion) inclusion_within

/-- One pass over the productions of a grammar. -/
def pass (grammar : Grammar) (first : FirstSets) : FirstSets :=
  ⟨(growth grammar).pass first.family⟩

/-- How many symbols one pass over the productions of a grammar adds. -/
def gain (grammar : Grammar) (first : FirstSets) : Nat :=
  (pass grammar first).family.cardinality - first.family.cardinality

/-- Passes over the productions of a grammar, up to the first one that adds nothing. -/
def saturate (grammar : Grammar) (first : FirstSets) : Saturated FirstSets :=
  let final := (growth grammar).saturate first.family
  ⟨⟨final.value⟩, final.passes⟩

/-- The family before the first pass: a terminal begins with itself, nothing is known of the
nonterminals. -/
def seed (grammar : Grammar) : FirstSets :=
  ⟨.ofKeys (grammar.terminals ∪ grammar.nonterminals) fun symbol =>
    if symbol.isTerminal then {symbol} else ∅⟩

/-- The FIRST sets of a grammar, with the number of passes that they took. -/
def computation (grammar : Grammar) : Saturated FirstSets := saturate grammar (seed grammar)

def ofGrammar (grammar : Grammar) : FirstSets := (computation grammar).value

def record (computed : Saturated FirstSets) : Log.Record where
  level := .debug
  text := "FIRST sets converged after " ++ toString computed.passes ++ " passes (" ++
    toString computed.value.family.size ++ " symbols)"

end FirstSets

end TableParsing
