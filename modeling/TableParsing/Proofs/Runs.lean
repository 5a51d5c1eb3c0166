import TableParsing.Machine

/-!
# Runs of deterministic machines

`Machine.stateAfter` follows a run for an exact number of steps,
`Machine.Halts` says that a run ends with a verdict, however long it takes, and
`Machine.Forever` that every number of steps leads to a further state.  A machine
is deterministic: a run can be entered in any of its states
(`halts_iff_of_stateAfter`), it has one verdict (`Halts.unique`), and it has none
exactly if it goes on for ever (`not_halts_of_forever`, `forever_of_not_halts`).

What is known of single steps carries over to runs: an invariant
(`stateAfter_induct`), a simulation by another machine (`stateAfter_project`),
and that another machine does the same on what the runs keep
(`stateAfter_mirror`, `verdictWithin_mirror`).
-/

namespace TableParsing

variable {σ τ μ : Type}

theorem Step.exists_of_mapState_eq_next {change : σ → τ} {own : Step σ μ} {move : μ}
    {following : τ} (h : own.mapState change = .next move following) :
    ∃ state, own = .next move state ∧ change state = following := by
  cases own with
  | next move state =>
      cases h
      exact ⟨state, rfl, rfl⟩
  | halt move accepted => cases h

/-- The same step with other moves and states. -/
def Step.map {ν : Type} (rename : μ → ν) (project : σ → τ) : Step σ μ → Step τ ν
  | next move state => next (rename move) (project state)
  | halt move accepted => halt (rename move) accepted

namespace Machine

/-- The state after exactly `steps` steps; none if the machine halts on the way. -/
def stateAfter (step : σ → Step σ μ) : (steps : Nat) → σ → Option σ
  | 0, state => some state
  | steps + 1, state =>
    match step state with
    | .halt _ _ => none
    | .next _ following => stateAfter step steps following

/-- The run from a state ends with a verdict. -/
def Halts (step : σ → Step σ μ) (state : σ) (accepted : Bool) : Prop :=
  ∃ steps, verdictWithin step steps state = some accepted

/-- The run from a state never ends. -/
def Forever (step : σ → Step σ μ) (state : σ) : Prop :=
  ∀ steps, ∃ middle, stateAfter step steps state = some middle

variable {step : σ → Step σ μ} {state middle final : σ} {accepted : Bool}

@[simp] theorem stateAfter_zero : stateAfter step 0 state = some state := rfl

theorem stateAfter_succ_of_next {move : μ} {steps : Nat} (h : step state = .next move middle) :
    stateAfter step (steps + 1) state = stateAfter step steps middle := by
  simp only [stateAfter, h]

theorem stateAfter_one {move : μ} (h : step state = .next move middle) :
    stateAfter step 1 state = some middle := by
  rw [stateAfter_succ_of_next h, stateAfter_zero]

theorem verdictWithin_succ_of_next {move : μ} {steps : Nat} (h : step state = .next move middle) :
    verdictWithin step (steps + 1) state = verdictWithin step steps middle := by
  simp only [verdictWithin, h]

theorem verdictWithin_of_halt {move : μ} {steps : Nat} (h : step state = .halt move accepted) :
    verdictWithin step (steps + 1) state = some accepted := by
  simp only [verdictWithin, h]

/-! ## Runs in parts -/

theorem exists_next_of_stateAfter_succ {steps : Nat}
    (h : stateAfter step (steps + 1) state = some final) :
    ∃ move middle, step state = .next move middle ∧ stateAfter step steps middle = some final := by
  cases hstep : step state with
  | next move middle => exact ⟨move, middle, rfl, by rwa [stateAfter_succ_of_next hstep] at h⟩
  | halt move accepted => simp [stateAfter, hstep] at h

theorem stateAfter_add {first second : Nat} (h : stateAfter step first state = some middle) :
    stateAfter step (first + second) state = stateAfter step second middle := by
  induction first generalizing state with
  | zero =>
      cases h
      rw [Nat.zero_add]
  | succ first ih =>
      obtain ⟨move, following, hstep, hrest⟩ := exists_next_of_stateAfter_succ h
      rw [Nat.succ_add, stateAfter_succ_of_next hstep]
      exact ih hrest

theorem stateAfter_trans {first second : Nat} (h : stateAfter step first state = some middle)
    (h' : stateAfter step second middle = some final) :
    stateAfter step (first + second) state = some final := by
  rw [stateAfter_add h, h']

theorem verdictWithin_add {first second : Nat} (h : stateAfter step first state = some middle) :
    verdictWithin step (first + second) state = verdictWithin step second middle := by
  induction first generalizing state with
  | zero =>
      cases h
      rw [Nat.zero_add]
  | succ first ih =>
      obtain ⟨move, following, hstep, hrest⟩ := exists_next_of_stateAfter_succ h
      rw [Nat.succ_add, verdictWithin_succ_of_next hstep]
      exact ih hrest

/-- What every step keeps holds along a run. -/
theorem stateAfter_induct {motive : σ → Prop} {steps : Nat}
    (h : stateAfter step steps state = some final) (start : motive state)
    (keeps : ∀ state move following, step state = .next move following → motive state →
      motive following) : motive final := by
  induction steps generalizing state with
  | zero =>
      cases h
      exact start
  | succ steps ih =>
      obtain ⟨move, following, hstep, hrest⟩ := exists_next_of_stateAfter_succ h
      exact ih hrest (keeps state move following hstep start)

/-- If a machine takes the steps that another one takes, it goes along with its runs. -/
theorem stateAfter_project {ν : Type} {other : τ → Step τ ν} (project : σ → τ)
    (follows : ∀ state move following, step state = .next move following →
      ∃ move, other (project state) = .next move (project following)) {steps : Nat}
    (h : stateAfter step steps state = some final) :
    stateAfter other steps (project state) = some (project final) := by
  induction steps generalizing state with
  | zero =>
      cases h
      rfl
  | succ steps ih =>
      obtain ⟨move, following, hstep, hrest⟩ := exists_next_of_stateAfter_succ h
      obtain ⟨_, hother⟩ := follows state move following hstep
      rw [stateAfter_succ_of_next hother]
      exact ih hrest

section Mirror

variable {ν : Type} {other : τ → Step τ ν} {project : σ → τ} {rename : μ → ν} {kept : σ → Prop}

/-- A machine that takes the same steps as another one on what its runs keep passes through the same
states. -/
theorem stateAfter_mirror
    (keeps : ∀ state move following, step state = .next move following → kept state →
      kept following)
    (mirrors : ∀ state, kept state → other (project state) = (step state).map rename project)
    {steps : Nat} (hstate : kept state) :
    stateAfter other steps (project state) = (stateAfter step steps state).map project := by
  induction steps generalizing state with
  | zero => rfl
  | succ steps ih =>
      have hother := mirrors state hstate
      cases hstep : step state with
      | next move following =>
          rw [hstep] at hother
          rw [stateAfter_succ_of_next hstep, stateAfter_succ_of_next hother]
          exact ih (keeps state move following hstep hstate)
      | halt move accepted =>
          rw [hstep] at hother
          simp only [stateAfter, hstep, hother, Step.map, Option.map_none]

/-- It comes to the same verdicts. -/
theorem verdictWithin_mirror
    (keeps : ∀ state move following, step state = .next move following → kept state →
      kept following)
    (mirrors : ∀ state, kept state → other (project state) = (step state).map rename project)
    {steps : Nat} (hstate : kept state) :
    verdictWithin other steps (project state) = verdictWithin step steps state := by
  induction steps generalizing state with
  | zero => rfl
  | succ steps ih =>
      have hother := mirrors state hstate
      cases hstep : step state with
      | next move following =>
          rw [hstep] at hother
          rw [verdictWithin_succ_of_next hstep, verdictWithin_succ_of_next hother]
          exact ih (keeps state move following hstep hstate)
      | halt move accepted =>
          rw [hstep] at hother
          rw [verdictWithin_of_halt hstep, verdictWithin_of_halt hother]

end Mirror

theorem verdictWithin_eq_none {steps : Nat} (h : stateAfter step steps state = some middle) :
    verdictWithin step steps state = none := by
  rw [← Nat.add_zero steps, verdictWithin_add h]
  rfl

/-! ## Verdicts -/

theorem halts_of_halt {move : μ} (h : step state = .halt move accepted) :
    Halts step state accepted :=
  ⟨1, verdictWithin_of_halt h⟩

theorem Halts.unique {first second : Bool} (h : Halts step state first)
    (h' : Halts step state second) : first = second := by
  obtain ⟨steps, hfirst⟩ := h
  obtain ⟨more, hsecond⟩ := h'
  have := verdictWithin_of_le hfirst (Nat.le_max_left steps more)
  rw [verdictWithin_of_le hsecond (Nat.le_max_right steps more)] at this
  exact (Option.some.inj this).symm

theorem halts_iff_of_stateAfter {steps : Nat} (h : stateAfter step steps state = some middle) :
    Halts step state accepted ↔ Halts step middle accepted := by
  constructor
  · rintro ⟨bound, hverdict⟩
    have := verdictWithin_of_le hverdict (Nat.le_add_left bound steps)
    rw [verdictWithin_add h] at this
    exact ⟨bound, this⟩
  · rintro ⟨bound, hverdict⟩
    exact ⟨steps + bound, by rw [verdictWithin_add h, hverdict]⟩

theorem halts_iff_of_next {move : μ} (h : step state = .next move middle) :
    Halts step state accepted ↔ Halts step middle accepted :=
  halts_iff_of_stateAfter (stateAfter_one h)

/-- A run passes only once through a state in which it halts, after a certain number of steps. -/
theorem eq_of_stateAfter_of_halt {steps steps' : Nat} {final' : σ} {move move' : μ}
    {accepted accepted' : Bool} (h : stateAfter step steps state = some final)
    (h' : stateAfter step steps' state = some final') (hhalt : step final = .halt move accepted)
    (hhalt' : step final' = .halt move' accepted') : steps = steps' ∧ final = final' := by
  induction steps generalizing state steps' with
  | zero =>
      cases h
      cases steps' with
      | zero =>
          cases h'
          exact ⟨rfl, rfl⟩
      | succ steps' =>
          obtain ⟨_, _, hnext, _⟩ := exists_next_of_stateAfter_succ h'
          rw [hhalt] at hnext
          cases hnext
  | succ steps ih =>
      -- the first step is common to both runs
      obtain ⟨_, middle, hnext, hrest⟩ := exists_next_of_stateAfter_succ h
      cases steps' with
      | zero =>
          cases h'
          rw [hhalt'] at hnext
          cases hnext
      | succ steps' =>
          rw [stateAfter_succ_of_next hnext] at h'
          obtain ⟨rfl, rfl⟩ := ih hrest h'
          exact ⟨rfl, rfl⟩

theorem not_halts_of_forever (h : Forever step state) : ¬ Halts step state accepted := by
  rintro ⟨steps, hverdict⟩
  obtain ⟨middle, hmiddle⟩ := h steps
  rw [verdictWithin_eq_none hmiddle] at hverdict
  cases hverdict

theorem forever_of_not_halts (h : ∀ accepted, ¬ Halts step state accepted) :
    Forever step state := by
  intro steps
  induction steps generalizing state with
  | zero => exact ⟨state, rfl⟩
  | succ steps ih =>
      cases hstep : step state with
      | halt move accepted => exact absurd (halts_of_halt hstep) (h accepted)
      | next move following =>
          rw [stateAfter_succ_of_next hstep]
          exact ih fun accepted hhalts => h accepted ((halts_iff_of_next hstep).mpr hhalts)

/-! ## Moves -/

theorem movesWithin_succ_of_next {move : μ} {steps : Nat} (h : step state = .next move middle) :
    movesWithin step (steps + 1) state = move :: movesWithin step steps middle := by
  simp only [movesWithin, h]

theorem movesWithin_of_halt {move : μ} {steps : Nat} (h : step state = .halt move accepted) :
    movesWithin step (steps + 1) state = [move] := by
  simp only [movesWithin, h]

/-- A verdict comes from a last state, which halts with the last move of the run. -/
theorem exists_final_of_verdictWithin {bound : Nat}
    (h : verdictWithin step bound state = some accepted) :
    ∃ steps final move, stateAfter step steps state = some final ∧
      step final = .halt move accepted ∧ move ∈ movesWithin step bound state := by
  induction bound generalizing state with
  | zero => cases h
  | succ bound ih =>
      cases hstep : step state with
      | halt move verdict =>
          rw [verdictWithin_of_halt hstep] at h
          cases h
          rw [movesWithin_of_halt hstep]
          exact ⟨0, state, move, rfl, hstep, List.mem_singleton_self move⟩
      | next own following =>
          rw [verdictWithin_succ_of_next hstep] at h
          obtain ⟨steps, final, move, hsteps, hhalt, hmove⟩ := ih h
          rw [movesWithin_succ_of_next hstep]
          refine ⟨steps + 1, final, move, ?_, hhalt, List.mem_cons_of_mem _ hmove⟩
          rw [stateAfter_succ_of_next hstep, hsteps]

/-- The moves of a run are made by the steps of the states that it passes. -/
theorem exists_step_of_mem_movesWithin {bound : Nat} {move : μ}
    (h : move ∈ movesWithin step bound state) :
    ∃ steps final, stateAfter step steps state = some final ∧
      ((∃ following, step final = .next move following) ∨
        ∃ accepted, step final = .halt move accepted) := by
  induction bound generalizing state with
  | zero => cases h
  | succ bound ih =>
      cases hstep : step state with
      | halt own accepted =>
          rw [movesWithin_of_halt hstep, List.mem_singleton] at h
          subst h
          exact ⟨0, state, rfl, .inr ⟨accepted, hstep⟩⟩
      | next own following =>
          rw [movesWithin_succ_of_next hstep] at h
          rcases List.mem_cons.mp h with rfl | hlater
          · exact ⟨0, state, rfl, .inl ⟨following, hstep⟩⟩
          · obtain ⟨steps, final, hsteps, hfinal⟩ := ih hlater
            exact ⟨steps + 1, final, by rw [stateAfter_succ_of_next hstep, hsteps], hfinal⟩

end Machine

end TableParsing
