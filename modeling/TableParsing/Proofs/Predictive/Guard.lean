import TableParsing.Proofs.Predictive.Driver

/-!
# Pending expansions

The guard of the predictive driver remembers, since the last symbol that was
read, which nonterminals were expanded at which height of the stack.  It drops
an entry only when a nonterminal comes up below that height, so that entries may
be out of date; the invariant `Watched` is true of all of them nevertheless:

* an entry stands for an expansion that has led to what now stands on the stack
  above its height (`unfolded`), possibly to nothing;
* the heights decrease from the latest entry to the earliest, by no more than
  the length of a body from one to the next (`spaced`);
* the nonterminals are different ones of the grammar (`distinct`, `known`).

The guard refuses a nonterminal that is found in an entry that is not out of
date.  The expansion of that nonterminal has led to a stack with the nonterminal
on top, before the same symbol: the plain driver would go round for ever
(`Watched.not_halts_of_refused`).
-/

namespace TableParsing.Predictive

open Machine

/-! ## The entries of the guard -/

/-- The heights of the entries decrease, each at most `width` below the one before, from `top` on. -/
def Spaced (width : Nat) : (top : Nat) → List Expansion → Prop
  | _, [] => True
  | top, expansion :: rest =>
    expansion.below ≤ top ∧ top ≤ expansion.below + width ∧ Spaced width expansion.below rest

theorem Spaced.below_le {width top : Nat} {expansions : List Expansion}
    (h : Spaced width top expansions) : ∀ expansion ∈ expansions, expansion.below ≤ top := by
  induction expansions generalizing top with
  | nil => simp
  | cons first rest ih =>
      intro expansion hexpansion
      rcases List.mem_cons.mp hexpansion with rfl | hrest
      · exact h.1
      · exact (ih h.2.2 expansion hrest).trans h.1

/-- Dropping the entries above a height leaves entries that are spaced from that height on. -/
theorem Spaced.pendingAt {width top height : Nat} {expansions : List Expansion}
    (h : Spaced width top expansions) (hle : height ≤ top) :
    Spaced width height (pendingAt height expansions) := by
  induction expansions generalizing top with
  | nil => trivial
  | cons first rest ih =>
      by_cases hdrop : height < first.below
      · rw [Predictive.pendingAt, List.dropWhile_cons_of_pos (by simpa using hdrop)]
        exact ih h.2.2 hdrop.le
      · rw [Predictive.pendingAt, List.dropWhile_cons_of_neg (by simpa using hdrop)]
        exact ⟨Nat.le_of_not_lt hdrop, hle.trans h.2.1, h.2.2⟩

theorem pendingAt_sublist (height : Nat) (expansions : List Expansion) :
    (pendingAt height expansions).Sublist expansions :=
  List.dropWhile_sublist _

theorem expand?_eq_some {expansions pending : List Expansion} {nonterminal : Symbol} {height : Nat}
    (h : expand? expansions nonterminal height = some pending) :
    pending = ⟨nonterminal, height⟩ :: pendingAt height expansions ∧
      ∀ expansion ∈ pendingAt height expansions, expansion.nonterminal ≠ nonterminal := by
  simp only [expand?] at h
  split at h
  · cases h
  · rename_i hfresh
    cases h
    refine ⟨rfl, fun expansion hexpansion same => hfresh ?_⟩
    exact List.any_eq_true.mpr ⟨expansion, hexpansion, beq_iff_eq.mpr same⟩

theorem expand?_eq_none {expansions : List Expansion} {nonterminal : Symbol} {height : Nat}
    (h : expand? expansions nonterminal height = none) :
    ∃ expansion ∈ pendingAt height expansions, expansion.nonterminal = nonterminal := by
  simp only [expand?] at h
  split at h
  · rename_i hpending
    obtain ⟨expansion, hexpansion, same⟩ := List.any_eq_true.mp hpending
    exact ⟨expansion, hexpansion, beq_iff_eq.mp same⟩
  · cases h

/-- The guard refuses the nonterminal on top of the stack. -/
def Refused (state : Guarded) : Prop :=
  ∃ symbol below, state.config.stack = symbol :: below ∧ symbol.isNonterminal = true ∧
    expand? state.expansions symbol below.length = none

namespace Parser

variable {grammar : Grammar} {first : FirstSets} {follow : FollowSets} {parser : Parser}

/-! ## What a guarded step can do -/

/-- The effects of a guarded step: those of a plain step, with the entries brought up to date, or
the refusal of a nonterminal that is pending. -/
inductive GuardedEffect (parser : Parser) : Guarded → Step Guarded Move → Prop
  | matched (symbol : Symbol) (below rest : List Symbol) (expansions : List Expansion) :
      GuardedEffect parser ⟨⟨symbol :: below, symbol :: rest⟩, expansions⟩
        (.next (.matched symbol) ⟨⟨below, rest⟩, []⟩)
  | expanded (symbol : Symbol) (below rest : List Symbol) (expansions pending : List Expansion)
      (production : Production) (hkind : symbol.isNonterminal = true)
      (hexpand : expand? expansions symbol below.length = some pending)
      (hpredict : parser.predict? symbol (nextOf rest) = some production) :
      GuardedEffect parser ⟨⟨symbol :: below, rest⟩, expansions⟩
        (.next (.expanded production) ⟨⟨production.body ++ below, rest⟩, pending⟩)
  | accepted (expansions : List Expansion) :
      GuardedEffect parser ⟨⟨[], []⟩, expansions⟩ (.halt (.matched .endMarker) true)
  | rejected (state : Guarded) (move : Move)
      (hplain : parser.step state.config = .halt move false) :
      GuardedEffect parser state (.halt move false)
  | recurring (symbol : Symbol) (below rest : List Symbol) (expansions : List Expansion)
      (hkind : symbol.isNonterminal = true)
      (hexpand : expand? expansions symbol below.length = none) :
      GuardedEffect parser ⟨⟨symbol :: below, rest⟩, expansions⟩
        (.halt (.recurring symbol (nextOf rest)) false)

theorem guardedStep_effect (parser : Parser) {stack rest : List Symbol}
    (expansions : List Expansion) (hproper : Proper stack) (hrest : IsWord rest) :
    GuardedEffect parser ⟨⟨stack, rest⟩, expansions⟩
      (parser.guardedStep ⟨⟨stack, rest⟩, expansions⟩) := by
  have heffect := parser.step_effect hproper hrest
  generalize houtcome : parser.step ⟨stack, rest⟩ = outcome at heffect
  cases heffect with
  | matched symbol below rest =>
      simp only [guardedStep, lookahead_eq, nextOf_cons, houtcome, ne_eq, not_true_eq_false,
        false_and, if_false, Step.mapState]
      exact .matched symbol below rest expansions
  | expanded symbol below rest production hkind hpredict =>
      have hne := (isInput_nextOf hrest).ne_nonterminal hkind
      simp only [guardedStep, lookahead_eq, houtcome, ne_eq, hne, hkind, not_false_eq_true,
        and_self, if_true, Step.mapState]
      split
      · rename_i hexpand
        exact .recurring symbol below rest expansions hkind hexpand
      · rename_i pending hexpand
        exact .expanded symbol below rest expansions pending production hkind hexpand hpredict
  | accepted =>
      simp only [guardedStep, houtcome, Step.mapState]
      exact .accepted expansions
  | rejected config move =>
      cases stack with
      | nil =>
          simp only [guardedStep, houtcome, Step.mapState]
          exact .rejected _ move houtcome
      | cons symbol below =>
          simp only [guardedStep, lookahead_eq, houtcome, Step.mapState]
          split
          · rename_i hguard
            split
            · rename_i hexpand
              exact .recurring symbol below rest expansions hguard.2 hexpand
            · exact .rejected _ move houtcome
          · exact .rejected _ move houtcome

/-! ## Unfolding the top of the stack -/

/-- One expansion before a lookahead. -/
inductive Unfolds (parser : Parser) (lookahead : Symbol) : List Symbol → List Symbol → Prop
  | expand {symbol : Symbol} {production : Production} (hkind : symbol.isNonterminal = true)
      (hpredict : parser.predict? symbol lookahead = some production) (below : List Symbol) :
      Unfolds parser lookahead (symbol :: below) (production.body ++ below)

theorem Unfolds.append_right {lookahead : Symbol} {front front' : List Symbol}
    (h : parser.Unfolds lookahead front front') (below : List Symbol) :
    parser.Unfolds lookahead (front ++ below) (front' ++ below) := by
  cases h with
  | expand hkind hpredict under =>
      rw [List.append_assoc]
      exact .expand hkind hpredict (under ++ below)

/-- The top of the stack unfolds in the same way whatever stands below. -/
theorem transGen_unfolds_append_right {lookahead : Symbol} {front front' : List Symbol}
    (h : Relation.TransGen (parser.Unfolds lookahead) front front') (below : List Symbol) :
    Relation.TransGen (parser.Unfolds lookahead) (front ++ below) (front' ++ below) :=
  Relation.TransGen.lift (· ++ below)
    (fun _ _ (hunfold : parser.Unfolds _ _ _) => hunfold.append_right below) _ _ h

theorem stateAfter_of_unfolds {rest : List Symbol} (hrest : IsWord rest)
    {stack stack' : List Symbol}
    (h : Relation.TransGen (parser.Unfolds (nextOf rest)) stack stack') :
    ∃ steps, stateAfter parser.step (steps + 1) ⟨stack, rest⟩ = some ⟨stack', rest⟩ := by
  have hone : ∀ {stack stack' : List Symbol}, parser.Unfolds (nextOf rest) stack stack' →
      stateAfter parser.step 1 ⟨stack, rest⟩ = some ⟨stack', rest⟩ := by
    intro stack stack' hunfold
    cases hunfold with
    | expand hkind hpredict under => exact stateAfter_one (step_expanded hkind hrest hpredict)
  induction h with
  | single hunfold => exact ⟨0, hone hunfold⟩
  | tail _ hunfold ih =>
      obtain ⟨steps, hsteps⟩ := ih
      exact ⟨steps + 1, stateAfter_trans hsteps (hone hunfold)⟩

/-- A nonterminal that unfolds to a stack with itself on top is never done with. -/
theorem not_halts_of_unfolds {rest : List Symbol} (hrest : IsWord rest) {symbol : Symbol}
    {front : List Symbol}
    (h : Relation.TransGen (parser.Unfolds (nextOf rest)) [symbol] (symbol :: front))
    (below : List Symbol) (accepted : Bool) :
    ¬ Halts parser.step ⟨symbol :: below, rest⟩ accepted := by
  rintro ⟨bound, hverdict⟩
  induction bound using Nat.strong_induction_on generalizing below with
  | _ bound ih =>
      obtain ⟨steps, hsteps⟩ := stateAfter_of_unfolds hrest (transGen_unfolds_append_right h below)
      rw [List.singleton_append, List.cons_append] at hsteps
      -- a verdict would have to come after the first round
      have hlonger : steps + 1 ≤ bound := by
        by_contra hshort
        have := verdictWithin_of_le hverdict (show bound ≤ steps + 1 by omega)
        rw [verdictWithin_eq_none hsteps] at this
        cases this
      obtain ⟨less, rfl⟩ := Nat.exists_eq_add_of_le hlonger
      rw [verdictWithin_add hsteps] at hverdict
      exact ih less (by omega) (front ++ below) hverdict

/-! ## The invariant -/

/-- What is true of the entries of the guard in every state of a run. -/
structure Watched (parser : Parser) (state : Guarded) : Prop where
  proper : Proper state.config.stack
  word : IsWord state.config.rest
  spaced : Spaced parser.grammar.longestBody state.config.stack.length state.expansions
  distinct : (state.expansions.map Expansion.nonterminal).Nodup
  known : ∀ expansion ∈ state.expansions, expansion.nonterminal ∈ parser.grammar.nonterminals
  unfolded : ∀ expansion ∈ state.expansions, ∃ front base,
    state.config.stack = front ++ base ∧ base.length = expansion.below ∧
      Relation.TransGen (parser.Unfolds (nextOf state.config.rest)) [expansion.nonterminal] front

theorem watched_start (parser : Parser) {word : List Symbol} (hword : IsWord word) :
    parser.Watched ⟨parser.start word, []⟩ where
  proper := proper_start parser.grammar
  word := hword
  spaced := trivial
  distinct := List.nodup_nil
  known := by simp
  unfolded := by simp

/-- An entry that is not above the nonterminal on top has unfolded to a stack with the nonterminal
on top. -/
theorem Watched.exists_front {symbol : Symbol} {below rest : List Symbol}
    {expansions : List Expansion} (h : parser.Watched ⟨⟨symbol :: below, rest⟩, expansions⟩)
    {expansion : Expansion} (hexpansion : expansion ∈ pendingAt below.length expansions) :
    ∃ front base, below = front ++ base ∧ base.length = expansion.below ∧
      Relation.TransGen (parser.Unfolds (nextOf rest)) [expansion.nonterminal]
        (symbol :: front) := by
  have hmem := (pendingAt_sublist below.length expansions).subset hexpansion
  obtain ⟨front, base, hstack, hlength, hunfold⟩ := h.unfolded expansion hmem
  have hlow : expansion.below ≤ below.length :=
    (h.spaced.pendingAt (by simp)).below_le expansion hexpansion
  cases front with
  | nil =>
      have hcount := congrArg List.length hstack
      simp at hcount
      omega
  | cons head front =>
      obtain ⟨rfl, rfl⟩ := List.cons.inj hstack
      exact ⟨front, base, rfl, hlength, hunfold⟩

theorem Watched.expanded (h : ofSets grammar first follow = .ok parser) {symbol : Symbol}
    {below rest : List Symbol} {expansions pending : List Expansion} {production : Production}
    (hkind : symbol.isNonterminal = true)
    (hwatched : parser.Watched ⟨⟨symbol :: below, rest⟩, expansions⟩)
    (hexpand : expand? expansions symbol below.length = some pending)
    (hpredict : parser.predict? symbol (nextOf rest) = some production) :
    parser.Watched ⟨⟨production.body ++ below, rest⟩, pending⟩ := by
  obtain ⟨rfl, hfresh⟩ := expand?_eq_some hexpand
  have hgrammar := (exists_table_of_ofSets h).1
  obtain ⟨hproduction, hlhs⟩ := mem_of_predict? h hpredict
  have hsublist := pendingAt_sublist below.length expansions
  refine ⟨hwatched.proper.expand hproduction, hwatched.word, ?_, ?_, ?_, ?_⟩
  · have hbody := Grammar.length_body_le hproduction
    rw [← hgrammar] at hbody
    refine ⟨by simp, ?_, hwatched.spaced.pendingAt (by simp)⟩
    simp only [List.length_append]
    omega
  · rw [List.map_cons, List.nodup_cons]
    refine ⟨fun hmem => ?_, hwatched.distinct.sublist (hsublist.map _)⟩
    obtain ⟨expansion, hexpansion, same⟩ := List.mem_map.mp hmem
    exact hfresh expansion hexpansion same
  · intro expansion hexpansion
    rcases List.mem_cons.mp hexpansion with rfl | hexpansion
    · rw [hgrammar]
      exact Grammar.mem_nonterminals.mpr ⟨production, hproduction, hlhs⟩
    · exact hwatched.known expansion (hsublist.subset hexpansion)
  · intro expansion hexpansion
    rcases List.mem_cons.mp hexpansion with rfl | hexpansion
    · refine ⟨production.body, below, rfl, rfl, ?_⟩
      have hunfold := Unfolds.expand hkind hpredict []
      rw [List.append_nil] at hunfold
      exact .single hunfold
    · obtain ⟨front, base, rfl, hlength, hunfold⟩ := hwatched.exists_front hexpansion
      exact ⟨production.body ++ front, base, (List.append_assoc ..).symm, hlength,
        hunfold.tail (.expand hkind hpredict front)⟩

theorem Watched.step (h : ofSets grammar first follow = .ok parser) {state following : Guarded}
    {move : Move} (hwatched : parser.Watched state)
    (hstep : parser.guardedStep state = .next move following) : parser.Watched following := by
  obtain ⟨⟨stack, rest⟩, expansions⟩ := state
  have heffect := parser.guardedStep_effect expansions hwatched.proper hwatched.word
  rw [hstep] at heffect
  cases heffect with
  | matched symbol below rest =>
      exact ⟨hwatched.proper.tail, (isWord_cons.mp hwatched.word).2, trivial, List.nodup_nil,
        by simp, by simp⟩
  | expanded symbol below rest _ pending production hkind hexpand hpredict =>
      exact hwatched.expanded h hkind hexpand hpredict

/-- A nonterminal that the guard refuses has unfolded to a stack with itself on top. -/
theorem Watched.exists_recurrence {state : Guarded} (hwatched : parser.Watched state)
    (h : Refused state) : ∃ symbol below front, state.config.stack = symbol :: below ∧
      Relation.TransGen (parser.Unfolds (nextOf state.config.rest)) [symbol] (symbol :: front) := by
  obtain ⟨⟨stack, rest⟩, expansions⟩ := state
  obtain ⟨symbol, below, rfl, _, hexpand⟩ := h
  obtain ⟨expansion, hexpansion, same⟩ := expand?_eq_none hexpand
  obtain ⟨front, base, _, _, hunfold⟩ := hwatched.exists_front hexpansion
  rw [same] at hunfold
  exact ⟨symbol, below, front, rfl, hunfold⟩

/-- Where the guard refuses a nonterminal, the plain driver never ends. -/
theorem Watched.not_halts_of_refused {state : Guarded} (hwatched : parser.Watched state)
    (h : Refused state) (accepted : Bool) : ¬ Halts parser.step state.config accepted := by
  obtain ⟨⟨stack, rest⟩, expansions⟩ := state
  obtain ⟨symbol, below, front, rfl, hunfold⟩ := hwatched.exists_recurrence h
  exact not_halts_of_unfolds hwatched.word hunfold below accepted

/-! ## Beside the plain driver -/

theorem step_of_guardedStep {state following : Guarded} {move : Move}
    (h : parser.guardedStep state = .next move following) :
    parser.step state.config = .next move following.config := by
  have hmapped : ∀ expansions : List Expansion,
      (parser.step state.config).mapState (⟨·, expansions⟩) = .next move following →
        parser.step state.config = .next move following.config := by
    intro expansions hstep
    obtain ⟨config, hplain, rfl⟩ := Step.exists_of_mapState_eq_next hstep
    exact hplain
  unfold guardedStep at h
  split at h
  · exact hmapped _ h
  · split at h
    · split at h
      · cases h
      · exact hmapped _ h
    · exact hmapped _ h

/-- The plain driver goes along with the guarded one. -/
theorem stateAfter_of_guarded {steps : Nat} {state final : Guarded}
    (h : stateAfter parser.guardedStep steps state = some final) :
    stateAfter parser.step steps state.config = some final.config :=
  stateAfter_project Guarded.config
    (fun _ move _ hstep => ⟨move, step_of_guardedStep hstep⟩) h

theorem Watched.of_stateAfter (h : ofSets grammar first follow = .ok parser) {steps : Nat}
    {state final : Guarded} (hwatched : parser.Watched state)
    (hrun : stateAfter parser.guardedStep steps state = some final) : parser.Watched final :=
  stateAfter_induct hrun hwatched fun _ _ _ hstep hkept => hkept.step h hstep

/-- The guarded driver halts as the plain driver does, or it refuses the nonterminal on top. -/
theorem Watched.halt_cases {state : Guarded} {move : Move} {accepted : Bool}
    (hwatched : parser.Watched state) (hhalt : parser.guardedStep state = .halt move accepted) :
    parser.step state.config = .halt move accepted ∨ Refused state ∧ accepted = false := by
  obtain ⟨⟨stack, rest⟩, expansions⟩ := state
  have heffect := parser.guardedStep_effect expansions hwatched.proper hwatched.word
  rw [hhalt] at heffect
  cases heffect with
  | accepted => exact .inl (step_nil_nil parser)
  | rejected _ _ hplain => exact .inl hplain
  | recurring symbol below rest _ hkind hexpand =>
      exact .inr ⟨⟨symbol, below, rfl, hkind, hexpand⟩, rfl⟩

/-- A verdict of the guarded driver is the one of the plain driver, or a rejection by refusal. -/
theorem Watched.halts_or_refused (h : ofSets grammar first follow = .ok parser) {state : Guarded}
    {accepted : Bool} (hwatched : parser.Watched state)
    (hguarded : Halts parser.guardedStep state accepted) :
    Halts parser.step state.config accepted ∨ accepted = false ∧ ∃ steps final,
      stateAfter parser.guardedStep steps state = some final ∧ Refused final := by
  obtain ⟨bound, hverdict⟩ := hguarded
  obtain ⟨steps, final, move, hrun, hhalt, _⟩ := exists_final_of_verdictWithin hverdict
  have hfinal := hwatched.of_stateAfter h hrun
  rcases hfinal.halt_cases hhalt with hplain | ⟨hrefused, hfalse⟩
  · exact .inl ((halts_iff_of_stateAfter (stateAfter_of_guarded hrun)).mpr (halts_of_halt hplain))
  · exact .inr ⟨hfalse, steps, final, hrun, hrefused⟩

/-- Where the guard comes to refuse a nonterminal, the plain driver never ends. -/
theorem Watched.not_halts_of_later_refused (h : ofSets grammar first follow = .ok parser)
    {steps : Nat} {state final : Guarded} (hwatched : parser.Watched state)
    (hrun : stateAfter parser.guardedStep steps state = some final) (hrefused : Refused final)
    (accepted : Bool) : ¬ Halts parser.step state.config accepted := by
  intro hhalts
  have hlater := (halts_iff_of_stateAfter (stateAfter_of_guarded hrun)).mp hhalts
  exact (hwatched.of_stateAfter h hrun).not_halts_of_refused hrefused accepted hlater

end Parser

end TableParsing.Predictive
