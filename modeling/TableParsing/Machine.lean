/-!
# Deterministic machines

Both parsers are machines that take one step after another until a step halts
with a verdict.  Every step makes a move, which says what was done.

A run is observed through a bound on its steps: `verdictWithin` is the verdict,
if the machine halts within the bound, and `movesWithin` lists the moves up to
there.
-/

namespace TableParsing

/-- What one step does: it makes a move and goes on to a state, or halts with a verdict. -/
inductive Step (σ μ : Type) where
  | next (move : μ) (state : σ)
  | halt (move : μ) (accepted : Bool)
deriving DecidableEq, Repr

namespace Step

variable {σ τ μ : Type}

/-- The same step with another kind of state. -/
def mapState (change : σ → τ) : Step σ μ → Step τ μ
  | next move state => next move (change state)
  | halt move accepted => halt move accepted

end Step

namespace Machine

variable {σ μ : Type}

/-- The verdict of a run of at most `steps` steps; none if it takes more. -/
def verdictWithin (step : σ → Step σ μ) : (steps : Nat) → σ → Option Bool
  | 0, _ => none
  | steps + 1, state =>
    match step state with
    | .halt _ accepted => some accepted
    | .next _ following => verdictWithin step steps following

/-- The moves of a run, at most `steps` of them. -/
def movesWithin (step : σ → Step σ μ) : (steps : Nat) → σ → List μ
  | 0, _ => []
  | steps + 1, state =>
    match step state with
    | .halt move _ => [move]
    | .next move following => move :: movesWithin step steps following

/-- More steps do not change a verdict. -/
theorem verdictWithin_of_le {step : σ → Step σ μ} {steps more : Nat} {state : σ} {accepted : Bool}
    (h : verdictWithin step steps state = some accepted) (le : steps ≤ more) :
    verdictWithin step more state = some accepted := by
  induction steps generalizing more state with
  | zero => cases h
  | succ steps ih =>
    obtain ⟨more, rfl⟩ : ∃ fewer, more = fewer + 1 := ⟨more - 1, by omega⟩
    unfold verdictWithin at h ⊢
    split at h
    · exact h
    · exact ih h (by omega)

end Machine

end TableParsing
