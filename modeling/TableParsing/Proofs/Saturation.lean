import Mathlib.Logic.Function.Iterate
import TableParsing.Saturation

/-!
# The end of repeated passes

`Saturates pass size state final` describes the loop that repeats a pass from a
state on, for as long as a pass enlarges the state: `final` holds the state after
the first pass that leaves the size as it was, and the number of passes.  There
is such a `final` only if the loop ends.  `Growth.saturate` computes it, provided
that no pass makes a state smaller (`Growth.saturates`).
-/

namespace TableParsing

variable {σ τ : Type}

/-- Passes are repeated from a state on, up to the first one that adds nothing. -/
inductive Saturates (pass : σ → σ) (size : σ → Nat) : σ → Saturated σ → Prop
  | last {state : σ} (h : size (pass state) = size state) :
      Saturates pass size state ⟨pass state, 1⟩
  | more {state : σ} {final : Saturated σ} (h : size state < size (pass state))
      (later : Saturates pass size (pass state) final) :
      Saturates pass size state ⟨final.value, final.passes + 1⟩

/-- The loop over states in another form. -/
theorem Saturates.map {pass : σ → σ} {size : σ → Nat} {pass' : τ → τ} {size' : τ → Nat}
    (form : σ → τ) (hpass : ∀ state, pass' (form state) = form (pass state))
    (hsize : ∀ state, size' (form state) = size state) {state : σ} {final : Saturated σ}
    (h : Saturates pass size state final) :
    Saturates pass' size' (form state) ⟨form final.value, final.passes⟩ := by
  induction h with
  | last h =>
      rw [← hpass]
      exact .last (by rw [hpass, hsize, hsize, h])
  | more h _ ih =>
      rw [← hpass] at ih
      exact .more (by rwa [hpass, hsize, hsize]) ih

/-- The loop ends with a state that some number of passes led to, the last one of them without
growth. -/
theorem Saturates.exists_iterate {pass : σ → σ} {size : σ → Nat} {state : σ} {final : Saturated σ}
    (h : Saturates pass size state final) :
    ∃ count, final.value = pass^[count + 1] state ∧
      size (pass^[count + 1] state) = size (pass^[count] state) := by
  induction h with
  | last h => exact ⟨0, rfl, h⟩
  | more _ _ ih =>
      obtain ⟨count, hvalue, hsize⟩ := ih
      exact ⟨count + 1, hvalue, hsize⟩

/-- Saturation is the loop that repeats the pass. -/
theorem Growth.saturates (growth : Growth σ)
    (hkeeps : ∀ state, growth.size state ≤ growth.size (growth.pass state)) (state : σ) :
    Saturates growth.pass growth.size state (growth.saturate state) := by
  fun_induction growth.saturate state with
  | case1 state grown h final ih => exact .more h ih
  | case2 state grown h => exact .last (Nat.le_antisymm (Nat.le_of_not_lt h) (hkeeps state))

end TableParsing
