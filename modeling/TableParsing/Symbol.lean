/-!
# Grammar symbols

A symbol is a terminal or a nonterminal with its atom (its spelling), the mark
of the empty string, or the end marker that stands behind every input.

In texts an atom alone decides what a symbol is: `Symbol.classify` reads `e` as
the empty string, `$` as the end marker, a single ASCII uppercase letter as a
nonterminal and everything else as a terminal.  A `Symbol` built directly may
pair any atom with any kind; productions are checked for such spellings.
-/

namespace TableParsing

open Std

/-- A symbol of a grammar, of a set of lookaheads or of an input. -/
inductive Symbol where
  | epsilon
  | terminal (atom : String)
  | nonterminal (atom : String)
  | endMarker
deriving DecidableEq, Repr

namespace Symbol

/-! ## Kinds and spelling -/

/-- The spelling of a symbol in grammar texts. -/
def atom : Symbol → String
  | epsilon => "e"
  | endMarker => "$"
  | terminal atom => atom
  | nonterminal atom => atom

/-- How a symbol is shown: by its atom, except that the empty string is `ε`. -/
def text : Symbol → String
  | epsilon => "ε"
  | endMarker => "$"
  | terminal atom => atom
  | nonterminal atom => atom

def isTerminal : Symbol → Bool
  | terminal _ => true
  | _ => false

def isNonterminal : Symbol → Bool
  | nonterminal _ => true
  | _ => false

/-- The symbol that an atom stands for. -/
def classify (atom : String) : Symbol :=
  match atom.toList with
  | ['e'] => epsilon
  | ['$'] => endMarker
  | [letter] => if letter.isUpper then nonterminal atom else terminal atom
  | _ => terminal atom

/-- The symbol that a character stands for. -/
def ofChar (character : Char) : Symbol := classify (String.singleton character)

/-- A list of symbols between braces. -/
def listText (symbols : List Symbol) : String :=
  "\x7b" ++ ", ".intercalate (symbols.map text) ++ "\x7d"

/-! ## Order

The empty string comes first, then the terminals, the nonterminals and the end
marker; symbols of one kind are ordered by the code points of their atoms. -/

/-- The place of a symbol's kind in the order. -/
def rank : Symbol → Nat
  | epsilon => 0
  | terminal _ => 1
  | nonterminal _ => 2
  | endMarker => 3

instance : Ord Symbol := ⟨compareLex (compareOn rank) (compareOn atom)⟩

instance : TransOrd Symbol :=
  inferInstanceAs (TransCmp (compareLex (compareOn rank) (compareOn atom)))

theorem eq_of_rank_of_atom {first second : Symbol} (ranks : first.rank = second.rank)
    (atoms : first.atom = second.atom) : first = second := by
  cases first <;> cases second <;> simp_all [rank, atom]

instance : LawfulEqOrd Symbol where
  eq_of_compare {first second} h :=
    have both : compare first.rank second.rank = .eq ∧ compare first.atom second.atom = .eq :=
      compareLex_eq_eq.mp h
    eq_of_rank_of_atom (LawfulEqOrd.eq_of_compare both.1) (LawfulEqOrd.eq_of_compare both.2)

end Symbol

end TableParsing
