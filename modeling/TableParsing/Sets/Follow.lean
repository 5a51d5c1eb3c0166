import TableParsing.Sets.First

/-!
# FOLLOW sets

FOLLOW of a nonterminal holds the symbols that can stand directly behind it: the
terminals that begin what follows one of its occurrences, FOLLOW of the
left-hand side where everything behind the occurrence can vanish, and the end
marker for the start symbol.

The sets are computed with given FIRST sets, not necessarily those of the
grammar.
-/

namespace TableParsing

/-- A set of symbols for each nonterminal. -/
structure FollowSets where
  family : SymbolFamily
deriving DecidableEq

/-- An occurrence of a nonterminal in the right-hand side of a production. -/
structure Occurrence where
  /-- The left-hand side of the production. -/
  lhs : Symbol
  /-- The nonterminal that occurs. -/
  symbol : Symbol
  /-- What stands behind the occurrence. -/
  suffix : List Symbol
deriving DecidableEq, Repr

namespace Occurrence

/-- The occurrences of nonterminals in a string, from left to right. -/
def inString (lhs : Symbol) : List Symbol → List Occurrence
  | [] => []
  | symbol :: rest =>
    if symbol.isNonterminal then ⟨lhs, symbol, rest⟩ :: inString lhs rest else inString lhs rest

/-- The occurrences of nonterminals in the right-hand sides of a grammar, in reading order. -/
def inGrammar (grammar : Grammar) : List Occurrence :=
  grammar.productions.flatMap fun production => inString production.lhs production.rhs

theorem suffix_subset {lhs : Symbol} {symbols : List Symbol} {occurrence : Occurrence}
    (h : occurrence ∈ inString lhs symbols) :
    ∀ symbol ∈ occurrence.suffix, symbol ∈ symbols := by
  fun_induction inString lhs symbols with
  | case1 => cases h
  | case2 symbol rest kind ih => rcases List.mem_cons.mp h with rfl | h <;> grind
  | case3 symbol rest kind ih => grind

end Occurrence

namespace FollowSets

/-! ## Reading -/

def get? (follow : FollowSets) (symbol : Symbol) : Option SymbolSet := follow.family.get? symbol

/-- The set of a symbol; empty if it has none. -/
def setOf (follow : FollowSets) (symbol : Symbol) : SymbolSet := follow.family.setOf symbol

/-! ## Computing -/

/-- The demand of an occurrence: FOLLOW of the nonterminal includes what can begin the suffix, and
FOLLOW of the left-hand side if the suffix can vanish. -/
def inclusion (first : FirstSets) (occurrence : Occurrence) : Inclusion where
  target := occurrence.symbol
  source family :=
    let next := first.ofString occurrence.suffix
    if .epsilon ∈ next then FirstSets.visible next ∪ family.setOf occurrence.lhs
    else FirstSets.visible next

/-- The symbols that the occurrences of a grammar and FIRST sets bring into FOLLOW sets. -/
def alphabet (grammar : Grammar) (first : FirstSets) : SymbolSet :=
  FirstSets.alphabet grammar ∪ first.family.members

theorem inclusion_within {grammar : Grammar} {first : FirstSets} :
    ∀ demand ∈ (Occurrence.inGrammar grammar).map (inclusion first),
      demand.Within (alphabet grammar first) := by
  intro demand hdemand family member h
  obtain ⟨occurrence, hoccurrence, rfl⟩ := List.mem_map.mp hdemand
  obtain ⟨production, hproduction, hin⟩ := List.mem_flatMap.mp hoccurrence
  have next : ∀ symbol ∈ FirstSets.visible (first.ofString occurrence.suffix),
      symbol ∈ alphabet grammar first := by
    intro symbol hsymbol
    simp only [FirstSets.visible, SortedSet.mem_filter] at hsymbol
    simp only [alphabet, FirstSets.alphabet, SortedSet.mem_union, SortedSet.mem_ofList,
      List.mem_cons, List.mem_flatMap]
    rcases FirstSets.mem_ofString hsymbol.1 with h | h | h
    · exact .inl (.inl h)
    · exact .inl (.inr ⟨production, hproduction, Occurrence.suffix_subset hin symbol h⟩)
    · exact .inr h
  simp only [inclusion] at h
  split at h
  · rcases SortedSet.mem_union.mp h with h | h
    · exact SortedSet.mem_union.mpr (.inr (next member h))
    · exact SortedSet.mem_union.mpr (.inl (SymbolFamily.mem_members.mpr ⟨_, h⟩))
  · exact SortedSet.mem_union.mpr (.inr (next member h))

/-- The passes over the occurrences of nonterminals in a grammar. -/
def growth (grammar : Grammar) (first : FirstSets) : Growth SymbolFamily :=
  Inclusion.growth (alphabet grammar first) ((Occurrence.inGrammar grammar).map (inclusion first))
    inclusion_within

/-- One pass over the occurrences of nonterminals in a grammar. -/
def pass (grammar : Grammar) (first : FirstSets) (follow : FollowSets) : FollowSets :=
  ⟨(growth grammar first).pass follow.family⟩

/-- How many symbols one pass over the occurrences of nonterminals in a grammar adds. -/
def gain (grammar : Grammar) (first : FirstSets) (follow : FollowSets) : Nat :=
  (pass grammar first follow).family.cardinality - follow.family.cardinality

/-- Passes over the occurrences of a grammar, up to the first one that adds nothing. -/
def saturate (grammar : Grammar) (first : FirstSets) (follow : FollowSets) :
    Saturated FollowSets :=
  let final := (growth grammar first).saturate follow.family
  ⟨⟨final.value⟩, final.passes⟩

/-- The family before the first pass: only the end marker behind the start symbol is known. -/
def seed (grammar : Grammar) : FollowSets :=
  ⟨.ofKeys grammar.nonterminals fun symbol =>
    if symbol = grammar.start then {.endMarker} else ∅⟩

/-- The FOLLOW sets of a grammar for given FIRST sets, with the number of passes. -/
def computation (grammar : Grammar) (first : FirstSets) : Saturated FollowSets :=
  saturate grammar first (seed grammar)

def ofGrammar (grammar : Grammar) (first : FirstSets) : FollowSets :=
  (computation grammar first).value

def record (computed : Saturated FollowSets) : Log.Record where
  level := .debug
  text := "FOLLOW sets converged after " ++ toString computed.passes ++ " passes"

end FollowSets

end TableParsing
