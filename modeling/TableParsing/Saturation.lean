/-!
# Repeating a pass until it adds nothing

Sets that are defined by mutual inclusion are computed by passes over their
rules: a pass adds what the rules demand of the present state, and the passes
end with the first one that leaves the size as it was.  A `Growth` carries the
bound that makes this end: a pass that enlarges the state takes up some of the
room that is left.

`Growth.saturated_induct` transports what every pass keeps to the result, and
`Growth.exists_last_pass` says that the result comes from a last pass without
growth.
-/

namespace TableParsing

/-- A pass over states with a size, and a bound on how much more can be added. -/
structure Growth (σ : Type) where
  pass : σ → σ
  /-- How much a state holds. -/
  size : σ → Nat
  /-- How much more it could come to hold. -/
  room : σ → Nat
  /-- A pass that adds something leaves less room. -/
  room_lt : ∀ state, size state < size (pass state) → room (pass state) < room state

/-- What repeated passes lead to. -/
structure Saturated (σ : Type) where
  /-- The state after the last pass. -/
  value : σ
  /-- The number of passes, the last one, which adds nothing, included. -/
  passes : Nat
deriving DecidableEq, Repr

namespace Growth

variable {σ : Type}

/-- Repeats the pass of `growth` up to the first one that adds nothing. -/
def saturate (growth : Growth σ) (state : σ) : Saturated σ :=
  let grown := growth.pass state
  if h : growth.size state < growth.size grown then
    let final := growth.saturate grown
    ⟨final.value, final.passes + 1⟩
  else
    ⟨grown, 1⟩
termination_by growth.room state
decreasing_by exact growth.room_lt state h

/-- What a pass keeps holds of the saturated state. -/
theorem saturated_induct (growth : Growth σ) {motive : σ → Prop} (state : σ)
    (start : motive state) (step : ∀ state, motive state → motive (growth.pass state)) :
    motive (growth.saturate state).value := by
  fun_induction growth.saturate state with
  | case1 state grown h final ih => exact ih (step state start)
  | case2 state grown h => exact step state start

/-- The saturated state comes from a last pass that did not enlarge its state. -/
theorem exists_last_pass (growth : Growth σ) (state : σ) :
    ∃ last, (growth.saturate state).value = growth.pass last ∧
      ¬ growth.size last < growth.size (growth.pass last) := by
  fun_induction growth.saturate state with
  | case1 state grown h final ih => exact ih
  | case2 state grown h => exact ⟨state, rfl, h⟩

end Growth

end TableParsing
