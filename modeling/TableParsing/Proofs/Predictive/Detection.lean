import TableParsing.Proofs.Predictive.Recognition

/-!
# The guard detects endless runs

With tables made from any sets whatever, the guard of the predictive driver
refuses a nonterminal exactly where the plain driver would go on for ever
(`guard_exact`).  A refusal means that the nonterminal has unfolded to a stack
with itself on top, so the plain driver repeats itself; without a refusal the
guarded driver ends, by its potential, and the plain driver has gone along with it
to the same verdict.

The driver looks at one symbol of the input, or at the end marker behind it, in
every step.  Which one it is follows from how many symbols were matched before:
the number never exceeds the length of the input (`getElem?_cursor`).
-/

namespace TableParsing.Predictive

open Machine

/-- A move that takes a symbol off the stack and off the input. -/
def Move.isMatched : Move → Bool
  | matched _ => true
  | _ => false

/-- The only warnings are those of the guard. -/
theorem Move.level_record_eq_warn {move : Move} (h : move.record.level = .warn) :
    ∃ symbol lookahead, move = .recurring symbol lookahead := by
  cases move with
  | recurring symbol lookahead => exact ⟨symbol, lookahead, rfl⟩
  | matched | expanded | mismatched | unpredicted => cases h

namespace Parser

variable {grammar : Grammar} {first : FirstSets} {follow : FollowSets} {parser : Parser}
  {word : List Symbol}

/-- The number of symbols that the first `steps` steps on a word match. -/
def cursor (parser : Parser) (word : List Symbol) (steps : Nat) : Nat :=
  (movesWithin parser.guardedStep steps ⟨parser.start word, []⟩).countP Move.isMatched

/-- The guard refuses a nonterminal at some time on a list of atoms. -/
def Fires (parser : Parser) (atoms : List String) : Prop :=
  ∃ word, Word.ofAtoms? atoms = some word ∧ ∃ steps state,
    stateAfter parser.guardedStep steps ⟨parser.start word, []⟩ = some state ∧ Refused state

/-- A warning is issued on a list of atoms. -/
def Warns (parser : Parser) (atoms : List String) : Prop :=
  ∃ move ∈ parser.moves atoms, move.record.level = .warn

instance (parser : Parser) (atoms : List String) : Decidable (parser.Warns atoms) :=
  inferInstanceAs (Decidable (∃ move ∈ parser.moves atoms, _))

/-! ## The place in the input -/

theorem Watched.exists_read (h : ofSets grammar first follow = .ok parser) {steps : Nat}
    {state final : Guarded} (hwatched : parser.Watched state)
    (hrun : stateAfter parser.guardedStep steps state = some final) :
    ∃ read, state.config.rest = read ++ final.config.rest ∧
      read.length = (movesWithin parser.guardedStep steps state).countP Move.isMatched := by
  induction steps generalizing state with
  | zero =>
      cases hrun
      exact ⟨[], rfl, rfl⟩
  | succ steps ih =>
      obtain ⟨move, following, hstep, hrest⟩ := exists_next_of_stateAfter_succ hrun
      obtain ⟨read, hread, hcount⟩ := ih (hwatched.step h hstep) hrest
      rw [movesWithin_succ_of_next hstep]
      obtain ⟨⟨stack, rest⟩, expansions⟩ := state
      have heffect := parser.guardedStep_effect expansions hwatched.proper hwatched.word
      rw [hstep] at heffect
      cases heffect with
      | matched symbol below rest =>
          refine ⟨symbol :: read, congrArg (symbol :: ·) hread, ?_⟩
          rw [List.length_cons, hcount, List.countP_cons_of_pos rfl]
      | expanded symbol below rest _ pending production hkind hexpand hpredict =>
          refine ⟨read, hread, ?_⟩
          rw [hcount, List.countP_cons_of_neg Bool.false_ne_true]

/-- The symbol that a step looks at is the one behind those that were matched. -/
theorem getElem?_cursor (h : ofSets grammar first follow = .ok parser) (hword : IsWord word)
    {steps : Nat} {state : Guarded}
    (hrun : stateAfter parser.guardedStep steps ⟨parser.start word, []⟩ = some state) :
    (word ++ [.endMarker])[parser.cursor word steps]? = some state.config.lookahead := by
  obtain ⟨read, hread, hcount⟩ := (watched_start parser hword).exists_read h hrun
  have hsplit : word = read ++ state.config.rest := hread
  have hcursor : parser.cursor word steps = read.length := hcount.symm
  rw [hcursor, hsplit, List.append_assoc, List.getElem?_append_right (Nat.le_refl _), Nat.sub_self]
  cases hrest : state.config.rest with
  | nil => simp [Config.lookahead, hrest]
  | cons symbol rest => simp [Config.lookahead, hrest]

/-! ## Refusals -/

private theorem step_ne_recurring {config : Config} {symbol lookahead : Symbol} {accepted : Bool} :
    parser.step config ≠ .halt (.recurring symbol lookahead) accepted := by
  unfold step
  split
  · split <;> nofun
  · split
    · nofun
    · split
      · split <;> nofun
      · nofun

theorem Watched.halt_of_refused {state : Guarded} (hwatched : parser.Watched state)
    (h : Refused state) : ∃ symbol,
      parser.guardedStep state = .halt (.recurring symbol state.config.lookahead) false := by
  obtain ⟨⟨stack, rest⟩, expansions⟩ := state
  obtain ⟨symbol, below, rfl, hkind, hexpand⟩ := h
  have hguard : symbol ≠ nextOf rest ∧ symbol.isNonterminal = true :=
    ⟨(isInput_nextOf hwatched.word).ne_nonterminal hkind, hkind⟩
  refine ⟨symbol, ?_⟩
  simp only [guardedStep, lookahead_eq]
  rw [hexpand]
  exact if_pos hguard

theorem Watched.refused_of_recurring {state : Guarded} (hwatched : parser.Watched state)
    {symbol lookahead : Symbol}
    (h : (∃ following, parser.guardedStep state = .next (.recurring symbol lookahead) following) ∨
      ∃ accepted, parser.guardedStep state = .halt (.recurring symbol lookahead) accepted) :
    Refused state := by
  rcases h with ⟨following, hstep⟩ | ⟨accepted, hstep⟩
  · obtain ⟨⟨stack, rest⟩, expansions⟩ := state
    have heffect := parser.guardedStep_effect expansions hwatched.proper hwatched.word
    rw [hstep] at heffect
    cases heffect
  · rcases hwatched.halt_cases hstep with hplain | ⟨hrefused, _⟩
    · exact absurd hplain step_ne_recurring
    · exact hrefused

section Refusal

variable (h : ofSets grammar first follow = .ok parser) (hword : IsWord word) {steps : Nat}
  {state : Guarded}
  (hrun : stateAfter parser.guardedStep steps ⟨parser.start word, []⟩ = some state)
  (hrefused : Refused state)

include h hword hrun hrefused

private theorem acceptsWord_of_refused : parser.acceptsWord word = false := by
  have hwatched := (watched_start parser hword).of_stateAfter h hrun
  obtain ⟨symbol, hhalt⟩ := hwatched.halt_of_refused hrefused
  have hrejects := (halts_iff_of_stateAfter hrun).mpr (halts_of_halt hhalt)
  exact (halts_acceptsWord h hword).unique hrejects

private theorem exists_recurring_of_refused : ∃ symbol lookahead,
    .recurring symbol lookahead ∈
      movesWithin parser.guardedStep (parser.stepBound word) ⟨parser.start word, []⟩ := by
  have hwatched := (watched_start parser hword).of_stateAfter h hrun
  obtain ⟨symbol, hhalt⟩ := hwatched.halt_of_refused hrefused
  obtain ⟨accepted, hverdict⟩ := exists_verdict h hword
  obtain ⟨steps', final, move, hrun', hhalt', hmove⟩ := exists_final_of_verdictWithin hverdict
  -- the run has one last state only
  obtain ⟨_, rfl⟩ := eq_of_stateAfter_of_halt hrun hrun' hhalt hhalt'
  rw [hhalt] at hhalt'
  cases hhalt'
  exact ⟨symbol, _, hmove⟩

end Refusal

/-! ## Lists of atoms -/

theorem fires_iff_warns (h : ofSets grammar first follow = .ok parser) (atoms : List String) :
    parser.Fires atoms ↔ parser.Warns atoms := by
  unfold Fires Warns moves
  constructor
  · rintro ⟨word, hatoms, steps, state, hrun, hrefused⟩
    have hword := Word.isWord_of_ofAtoms? hatoms
    obtain ⟨symbol, lookahead, hmove⟩ := exists_recurring_of_refused h hword hrun hrefused
    rw [hatoms]
    exact ⟨_, hmove, rfl⟩
  · rintro ⟨move, hmove, hlevel⟩
    obtain ⟨symbol, lookahead, rfl⟩ := Move.level_record_eq_warn hlevel
    cases hatoms : Word.ofAtoms? atoms with
    | none =>
        rw [hatoms] at hmove
        cases hmove
    | some word =>
        rw [hatoms] at hmove
        obtain ⟨steps, state, hrun, hstep⟩ := exists_step_of_mem_movesWithin hmove
        have hstart := watched_start parser (Word.isWord_of_ofAtoms? hatoms)
        exact ⟨word, rfl, steps, state, hrun,
          (hstart.of_stateAfter h hrun).refused_of_recurring hstep⟩

theorem answers_of_not_fires (h : ofSets grammar first follow = .ok parser) {atoms : List String}
    (hquiet : ¬ parser.Fires atoms) :
    Machine.Answers parser.step parser.start atoms (parser.accepts atoms) := by
  unfold Machine.Answers accepts
  cases hatoms : Word.ofAtoms? atoms with
  | none => rfl
  | some word =>
      have hword := Word.isWord_of_ofAtoms? hatoms
      have hverdict := halts_acceptsWord h hword
      rcases (watched_start parser hword).halts_or_refused h hverdict with hplain | ⟨_, hrefused⟩
      · exact hplain
      · exact absurd ⟨word, hatoms, hrefused⟩ hquiet

/-- The guard refuses a nonterminal exactly where the plain driver never ends. -/
theorem fires_iff_diverges (h : ofSets grammar first follow = .ok parser) (atoms : List String) :
    parser.Fires atoms ↔ Machine.Diverges parser.step parser.start atoms := by
  constructor
  · rintro ⟨word, hatoms, steps, state, hrun, hrefused⟩
    have hstart := watched_start parser (Word.isWord_of_ofAtoms? hatoms)
    unfold Machine.Diverges
    rw [hatoms]
    exact forever_of_not_halts (hstart.not_halts_of_later_refused h hrun hrefused)
  · intro hdiverges
    by_contra hquiet
    exact (answers_of_not_fires h hquiet).not_diverges hdiverges

theorem accepts_of_fires (h : ofSets grammar first follow = .ok parser) {atoms : List String}
    (hfires : parser.Fires atoms) : parser.accepts atoms = false := by
  obtain ⟨word, hatoms, steps, state, hrun, hrefused⟩ := hfires
  rw [accepts, hatoms]
  exact acceptsWord_of_refused h (Word.isWord_of_ofAtoms? hatoms) hrun hrefused

theorem accepts_of_answers (h : ofSets grammar first follow = .ok parser) {atoms : List String}
    {accepted : Bool} (hanswers : Machine.Answers parser.step parser.start atoms accepted) :
    parser.accepts atoms = accepted ∧ ¬ parser.Fires atoms := by
  have hquiet : ¬ parser.Fires atoms := fun hfires =>
    hanswers.not_diverges ((fires_iff_diverges h atoms).mp hfires)
  exact ⟨(answers_of_not_fires h hquiet).unique hanswers, hquiet⟩

/-- For any sets, the parser answers every input and looks at symbols of the input, or the end
marker behind it, only.  Where the plain driver ends, its verdict is the answer and the guard refuses
nothing; the guard refuses a nonterminal, warns and rejects exactly where the plain driver goes on
for ever. -/
theorem guard_exact (h : ofSets grammar first follow = .ok parser) (atoms : List String) :
    parser.Answers atoms (parser.accepts atoms) ∧
      (∀ word, Word.ofAtoms? atoms = some word → ∀ steps state,
        stateAfter parser.guardedStep steps ⟨parser.start word, []⟩ = some state →
          (word ++ [.endMarker])[parser.cursor word steps]? = some state.config.lookahead) ∧
      (∀ accepted, Machine.Answers parser.step parser.start atoms accepted →
        parser.accepts atoms = accepted ∧ ¬ parser.Fires atoms) ∧
      (parser.Fires atoms ↔ Machine.Diverges parser.step parser.start atoms) ∧
      (parser.Fires atoms ↔ parser.Warns atoms) ∧
      (parser.Fires atoms → parser.accepts atoms = false) := by
  refine ⟨answers_accepts h atoms, fun word hatoms steps state hrun => ?_,
    fun accepted => accepts_of_answers h, fires_iff_diverges h atoms, fires_iff_warns h atoms,
    accepts_of_fires h⟩
  exact getElem?_cursor h (Word.isWord_of_ofAtoms? hatoms) hrun

/-- Whatever begins with an `S` begins with another one, behind nothing. -/
def leftRecursion : Grammar where
  start := .nonterminal "S"
  productions := [
    ⟨.nonterminal "S", [.nonterminal "N", .nonterminal "S", .terminal "a"]⟩,
    ⟨.nonterminal "S", [.terminal "b"]⟩,
    ⟨.nonterminal "N", [.epsilon]⟩]
  wellFormed := Grammar.wellFormed_of_fault?_eq_none (by decide)

/-- In this grammar an `S` begins with `a`. -/
def otherGrammar : Grammar where
  start := .nonterminal "S"
  productions := [
    ⟨.nonterminal "S", [.nonterminal "N", .terminal "a"]⟩,
    ⟨.nonterminal "N", [.epsilon]⟩]
  wellFormed := Grammar.wellFormed_of_fault?_eq_none (by decide)

/-- The sets of `otherGrammar` make a parser for `leftRecursion`.  On `a` it would expand `S` for
ever, with an `N` that vanishes in between; on `b` the guard makes no difference. -/
theorem guard_exact_leftRecursion :
    ∃ parser, ofSets leftRecursion (FirstSets.ofGrammar otherGrammar)
        (FollowSets.ofGrammar otherGrammar (FirstSets.ofGrammar otherGrammar)) = .ok parser ∧
      Machine.Diverges parser.step parser.start ["a"] ∧ parser.accepts ["a"] = false ∧
      Machine.Answers parser.step parser.start ["b"] true ∧ parser.accepts ["b"] = true ∧
      ¬ parser.Fires ["b"] := by
  have hruns : ((ofSets leftRecursion (FirstSets.ofGrammar otherGrammar)
      (FollowSets.ofGrammar otherGrammar (FirstSets.ofGrammar otherGrammar))).toOption.map
        fun parser => (decide (parser.Warns ["a"]),
          verdictWithin parser.step 5 (parser.start [.terminal "b"]))) =
      some (true, some true) := by decide +kernel
  obtain ⟨parser, h, hruns⟩ := exists_ok_of_toOption_map hruns
  obtain ⟨hwarns, hverdict⟩ := Prod.mk.inj hruns
  obtain ⟨_, _, _, hdiverges, hsame, hrejects⟩ := guard_exact h ["a"]
  have hfires : parser.Fires ["a"] := hsame.mpr (of_decide_eq_true hwarns)
  have hanswers : Machine.Answers parser.step parser.start ["b"] true := ⟨5, hverdict⟩
  obtain ⟨_, _, hplain, _⟩ := guard_exact h ["b"]
  exact ⟨parser, h, hdiverges.mp hfires, hrejects hfires, hanswers, hplain true hanswers⟩

end Parser

end TableParsing.Predictive
