import TableParsing.Symbol

/-!
# Cells of parse tables

Parse tables are maps from cells: a row (a nonterminal or a state) and a column
symbol.  Cells are ordered by row, then by column.
-/

namespace TableParsing

open Std

/-- A place in a table. -/
structure Cell (ρ : Type) where
  row : ρ
  column : Symbol
deriving DecidableEq, Repr

namespace Cell

variable {ρ : Type} [Ord ρ]

instance : Ord (Cell ρ) := ⟨compareLex (compareOn row) (compareOn column)⟩

instance [TransOrd ρ] : TransOrd (Cell ρ) :=
  inferInstanceAs (TransCmp (compareLex (compareOn row) (compareOn column)))

instance [TransOrd ρ] [LawfulEqOrd ρ] : LawfulEqOrd (Cell ρ) where
  eq_of_compare {first second} h := by
    have both : compare first.row second.row = .eq ∧
        compare first.column second.column = .eq :=
      compareLex_eq_eq.mp h
    cases first; cases second
    simp only [mk.injEq]
    exact ⟨LawfulEqOrd.eq_of_compare both.1, LawfulEqOrd.eq_of_compare both.2⟩

end Cell

end TableParsing
