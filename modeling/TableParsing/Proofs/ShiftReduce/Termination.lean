import Mathlib.Data.Fintype.Pigeonhole
import Mathlib.Order.Interval.Finset.Nat
import TableParsing.Proofs.ShiftReduce.Recognition
import TableParsing.Proofs.ShiftReduce.Viability

/-!
# Runs of the shift-reduce driver end

In a productive grammar, with the FIRST and FOLLOW sets of the grammar itself,
the driver ends on every list of atoms (`answers_of_productive`).

Only reductions can go on for ever, and a measure for them is not at hand: some
make the stack higher and some leave it as high as it is.  The argument goes
through the sentences instead.  A stack is `Reliable` before a lookahead if the
driver accepts every word that begins with the lookahead and completes the stack
to a sentence; the empty stack is, and steps keep it.  Suppose that the driver
reduces for ever before some lookahead.  Each stack on the way can be completed
to a sentence, and some symbol begins infinitely many of these words.  Before
that symbol the same reductions are demanded all along, since it can follow what
was reduced, so the driver does not end on a word that it should accept
(`not_reduces_forever`).
-/

namespace TableParsing.ShiftReduce.Parser

open Machine

variable {grammar : Grammar} {first : FirstSets} {follow : FollowSets} {parser : Parser}

/-! ## Reliable stacks -/

/-- The driver accepts every word that begins with the lookahead and completes the stack to a
sentence. -/
def Reliable (grammar : Grammar) (parser : Parser) (lookahead : Symbol)
    (frames : List Frame) : Prop :=
  ∀ word, IsWord word → nextOf word = lookahead →
    grammar.Derives [grammar.start] (spelled frames ++ word) →
      Halts parser.step ⟨frames, word⟩ true

theorem reliable_nil (h : ofFollow grammar follow = .ok parser) (hfirst : first.Closed grammar)
    (hfollow : FollowSets.Closed grammar first follow) (lookahead : Symbol) :
    Reliable grammar parser lookahead [] :=
  fun _ hword _ hderives =>
    halts_of_acceptsWord (acceptsWord_of_derives h hfirst hfollow hword hderives)

theorem Reliable.reduces (h : ofFollow grammar follow = .ok parser) {lookahead : Symbol}
    {frames frames' : List Frame} (hreliable : Reliable grammar parser lookahead frames)
    (hreduces : Reduces grammar parser lookahead frames frames') :
    Reliable grammar parser lookahead frames' := by
  rintro word hword rfl hderives
  obtain ⟨production, hstep⟩ := hreduces.step_eq h
  rw [← halts_iff_of_next hstep]
  exact hreliable word hword rfl (hderives.trans (hreduces.derives.append_right word))

/-- After a shift a stack is reliable before any lookahead. -/
theorem Reliable.shifted {frames : List Frame} {symbol : Symbol} {target : Nat}
    (hreliable : Reliable grammar parser symbol frames) (hterminal : symbol.isTerminal = true)
    (haction : parser.table.action? (topState frames) symbol = some (.shift target))
    (lookahead : Symbol) : Reliable grammar parser lookahead (⟨symbol, target⟩ :: frames) := by
  intro word hword _ hderives
  rw [spelled_cons, List.append_assoc] at hderives
  rw [← halts_iff_of_next (step_shifted haction)]
  exact hreliable (symbol :: word) (isWord_cons.mpr ⟨hterminal, hword⟩) rfl hderives

/-! ## No endless reductions -/

/-- A reduction is also made before a word that completes its outcome to a sentence. -/
theorem Reduces.before_word (h : ofFollow grammar follow = .ok parser)
    (hfirst : first.Closed grammar) (hfollow : FollowSets.Closed grammar first follow)
    {lookahead : Symbol} {frames frames' : List Frame}
    (hreduces : Reduces grammar parser lookahead frames frames') {word : List Symbol}
    (hword : IsWord word) (hderives : grammar.Derives [grammar.start] (spelled frames' ++ word)) :
    Reduces grammar parser (nextOf word) frames frames' := by
  obtain @⟨upper, lower, rule, target, production, haction, hproduction, hspelled, htarget⟩ :=
    hreduces
  refine .replace ?_ hproduction hspelled htarget
  have hcovers : FollowSets.Covers first follow [.endMarker]
      (spelled lower ++ production.lhs :: word) := by
    rw [spelled_cons, List.append_assoc] at hderives
    exact hfollow.covers_of_derives hfirst hderives hfollow.covers_start
  have hmember : nextOf word ∈ follow.setOf production.lhs :=
    FollowSets.Closed.nextOf_mem hfirst (FollowSets.covers_append.mp hcovers).2
      (Grammar.lhs_isNonterminal (Grammar.mem_of_production? hproduction))
      (Grammar.Derives.refl word) hword
  cases (action?_eq_some_iff h).mp haction with
  | reduce hitem hnext hrule hdemanded _ =>
      have hsame : some production = some _ :=
        (Grammar.augmented_production?_of_production? hproduction).symm.trans hdemanded
      cases hsame
      exact (action?_eq_some_iff h).mpr (.reduce hitem hnext hrule hdemanded hmember)

private theorem nextOf_mem_lookaheads {read word : List Symbol} (hword : IsWord word)
    (hderives : grammar.Derives [grammar.start] (read ++ word)) :
    nextOf word ∈ Symbol.endMarker :: grammar.terminals.toList := by
  cases word with
  | nil => exact List.mem_cons_self
  | cons symbol rest =>
      have hmem : symbol ∈ read ++ symbol :: rest :=
        List.mem_append_right _ List.mem_cons_self
      exact List.mem_cons_of_mem _ (hderives.mem_terminals symbol hmem (isWord_cons.mp hword).1)

/-- In an infinite sequence of symbols from a list some symbol comes again and again. -/
private theorem exists_recurring {symbols : List Symbol} {sequence : Nat → Symbol}
    (h : ∀ n, sequence n ∈ symbols) : ∃ symbol, ∀ n, ∃ m, n < m ∧ sequence m = symbol := by
  obtain ⟨symbol, hinfinite⟩ := Finite.exists_infinite_fiber
    fun n => (⟨sequence n, List.mem_toFinset.mpr (h n)⟩ : {symbol // symbol ∈ symbols.toFinset})
  refine ⟨symbol, fun n => ?_⟩
  obtain ⟨m, hm, hlt⟩ := (Set.infinite_coe_iff.mp hinfinite).exists_gt n
  exact ⟨m, hlt, congrArg Subtype.val hm⟩

/-- From a stack that is reliable before every lookahead the driver does not reduce for ever. -/
theorem not_reduces_forever (h : ofFollow grammar follow = .ok parser)
    (hfirst : first.Closed grammar) (hfollow : FollowSets.Closed grammar first follow)
    (hproductive : grammar.Productive) {stack : Nat → List Frame} {lookahead : Symbol}
    (hlinked : Linked (Automaton.ofGrammar grammar) (stack 0))
    (hreliable : ∀ next, Reliable grammar parser next (stack 0)) :
    ¬ ∀ n, Reduces grammar parser lookahead (stack n) (stack (n + 1)) := by
  intro hforever
  have hall : ∀ n, Linked (Automaton.ofGrammar grammar) (stack n) := by
    intro n
    induction n with
    | zero => exact hlinked
    | succ n ih => exact (hforever n).linked ih
  -- reductions are steps of a derivation, read backwards
  have hback : ∀ n m, n ≤ m → grammar.Derives (spelled (stack m)) (spelled (stack n)) := by
    intro n m hle
    induction hle with
    | refl => exact Grammar.Derives.refl _
    | step _ ih => exact (hforever _).derives.trans ih
  choose word hword hsentence using fun n => (hall n).exists_sentence hproductive
  obtain ⟨next, hrecurring⟩ := exists_recurring fun n =>
    nextOf_mem_lookaheads (hword n) (hsentence n)
  -- whatever was reduced, `next` begins a word that can follow it
  have hsame : ∀ n, Reduces grammar parser next (stack n) (stack (n + 1)) := by
    intro n
    obtain ⟨m, hlt, rfl⟩ := hrecurring n
    have hderives := (hsentence m).trans ((hback (n + 1) m hlt).append_right (word m))
    exact (hforever n).before_word h hfirst hfollow (hword m) hderives
  obtain ⟨m, hlt, hnext⟩ := hrecurring 0
  have haccepted : Halts parser.step ⟨stack 0, word m⟩ true :=
    hreliable next (word m) (hword m) hnext
      ((hsentence m).trans ((hback 0 m (Nat.zero_le m)).append_right (word m)))
  refine not_halts_of_forever (fun steps => ⟨⟨stack steps, word m⟩, ?_⟩) haccepted
  induction steps with
  | zero => rfl
  | succ steps ih =>
      obtain ⟨production, hstep⟩ := Reduces.step_eq h (hnext ▸ hsame steps)
      exact stateAfter_trans ih (stateAfter_one hstep)

/-! ## Every run ends -/

/-- If runs over shorter words end, then a run ends or begins with a reduction. -/
theorem exists_halts_or_reduces (h : ofFollow grammar follow = .ok parser) {rest : List Symbol}
    (hrest : IsWord rest) {frames : List Frame}
    (hlinked : Linked (Automaton.ofGrammar grammar) frames)
    (hreliable : Reliable grammar parser (nextOf rest) frames)
    (hshorter : ∀ symbol shorter, rest = symbol :: shorter → ∀ longer,
      Linked (Automaton.ofGrammar grammar) longer →
      (∀ lookahead, Reliable grammar parser lookahead longer) →
      ∃ accepted, Halts parser.step ⟨longer, shorter⟩ accepted) :
    (∃ accepted, Halts parser.step ⟨frames, rest⟩ accepted) ∨
      ∃ frames', Reduces grammar parser (nextOf rest) frames frames' := by
  have heffect := step_effect h hlinked hrest
  generalize houtcome : parser.step ⟨frames, rest⟩ = outcome at heffect
  cases heffect with
  | shifted _ symbol rest target haction htarget =>
      left
      obtain ⟨accepted, hhalts⟩ := hshorter symbol rest rfl (⟨symbol, target⟩ :: frames)
        ⟨htarget, hlinked⟩ (hreliable.shifted (isWord_cons.mp hrest).1 haction)
      exact ⟨accepted, (halts_iff_of_next houtcome).mpr hhalts⟩
  | reduced _ frames' _ production hreduces => exact .inr ⟨frames', hreduces⟩
  | accepted state => exact .inl ⟨true, halts_of_halt houtcome⟩
  | blocked frames rest => exact .inl ⟨false, halts_of_halt houtcome⟩

private theorem exists_halts_of_shorter (h : ofFollow grammar follow = .ok parser)
    (hfirst : first.Closed grammar) (hfollow : FollowSets.Closed grammar first follow)
    (hproductive : grammar.Productive) {rest : List Symbol} (hrest : IsWord rest)
    {frames : List Frame} (hlinked : Linked (Automaton.ofGrammar grammar) frames)
    (hreliable : ∀ lookahead, Reliable grammar parser lookahead frames)
    (hshorter : ∀ symbol shorter, rest = symbol :: shorter → ∀ longer,
      Linked (Automaton.ofGrammar grammar) longer →
      (∀ lookahead, Reliable grammar parser lookahead longer) →
      ∃ accepted, Halts parser.step ⟨longer, shorter⟩ accepted) :
    ∃ accepted, Halts parser.step ⟨frames, rest⟩ accepted := by
  by_contra hnever
  have hreduces : ∀ n frames', stateAfter parser.step n ⟨frames, rest⟩ = some ⟨frames', rest⟩ →
      Linked (Automaton.ofGrammar grammar) frames' →
      Reliable grammar parser (nextOf rest) frames' →
      ∃ following, Reduces grammar parser (nextOf rest) frames' following := by
    intro n frames' hrun hlinked' hreliable'
    refine (exists_halts_or_reduces h hrest hlinked' hreliable' hshorter).resolve_left ?_
    rintro ⟨accepted, hhalts⟩
    exact hnever ⟨accepted, (halts_iff_of_stateAfter hrun).mpr hhalts⟩
  have hsteps : ∀ n, ∃ frames', stateAfter parser.step n ⟨frames, rest⟩ = some ⟨frames', rest⟩ ∧
      Linked (Automaton.ofGrammar grammar) frames' ∧
      Reliable grammar parser (nextOf rest) frames' := by
    intro n
    induction n with
    | zero => exact ⟨frames, rfl, hlinked, hreliable _⟩
    | succ n ih =>
        obtain ⟨frames', hrun, hlinked', hreliable'⟩ := ih
        obtain ⟨following, hreduction⟩ := hreduces n frames' hrun hlinked' hreliable'
        obtain ⟨production, hstep⟩ := hreduction.step_eq h
        exact ⟨following, stateAfter_trans hrun (stateAfter_one hstep), hreduction.linked hlinked',
          hreliable'.reduces h hreduction⟩
  choose stack hrun hall hkept using hsteps
  obtain rfl : frames = stack 0 := congrArg Config.frames (Option.some.inj (hrun 0))
  have hfinite : ¬ ∀ n, Reduces grammar parser (nextOf rest) (stack n) (stack (n + 1)) :=
    not_reduces_forever h hfirst hfollow hproductive hlinked hreliable
  apply hfinite
  intro n
  obtain ⟨following, hreduction⟩ := hreduces n (stack n) (hrun n) (hall n) (hkept n)
  obtain ⟨production, hstep⟩ := hreduction.step_eq h
  have hnext := stateAfter_trans (hrun n) (stateAfter_one hstep)
  rw [hrun (n + 1)] at hnext
  obtain rfl : stack (n + 1) = following := congrArg Config.frames (Option.some.inj hnext)
  exact hreduction

theorem exists_halts (h : ofFollow grammar follow = .ok parser) (hfirst : first.Closed grammar)
    (hfollow : FollowSets.Closed grammar first follow) (hproductive : grammar.Productive)
    {rest : List Symbol} (hrest : IsWord rest) {frames : List Frame}
    (hlinked : Linked (Automaton.ofGrammar grammar) frames)
    (hreliable : ∀ lookahead, Reliable grammar parser lookahead frames) :
    ∃ accepted, Halts parser.step ⟨frames, rest⟩ accepted := by
  induction rest generalizing frames with
  | nil => exact exists_halts_of_shorter h hfirst hfollow hproductive hrest hlinked hreliable nofun
  | cons symbol rest ih =>
      apply exists_halts_of_shorter h hfirst hfollow hproductive hrest hlinked hreliable
      intro other shorter hsame longer hlonger hkept
      cases hsame
      exact ih (isWord_cons.mp hrest).2 hlonger hkept

/-- With the sets of the grammar itself, and if every nonterminal derives some word, the driver ends
on every list of atoms, with the verdict that the bounded run gives. -/
theorem answers_of_productive
    (h : ofFollow grammar (FollowSets.ofGrammar grammar (FirstSets.ofGrammar grammar)) =
      .ok parser) (hproductive : grammar.Productive) (atoms : List String) :
    parser.Answers atoms (parser.accepts atoms) := by
  have hfirst := FirstSets.ofGrammar_closed grammar
  have hfollow := FollowSets.ofGrammar_closed grammar (FirstSets.ofGrammar grammar)
  unfold Answers Machine.Answers accepts
  cases hatoms : Word.ofAtoms? atoms with
  | none => rfl
  | some word =>
      have hword := Word.isWord_of_ofAtoms? hatoms
      obtain ⟨accepted, hhalts⟩ := exists_halts h hfirst hfollow hproductive hword linked_nil
        (reliable_nil h hfirst hfollow)
      show Halts parser.step (start word) (parser.acceptsWord word)
      cases hverdict : parser.acceptsWord word with
      | true => exact halts_of_acceptsWord hverdict
      | false =>
          -- an accepting run would have been seen within the bound
          cases accepted with
          | true =>
              have hderives := derives_of_halts_start h hword hhalts
              rw [acceptsWord_of_derives h hfirst hfollow hword hderives] at hverdict
              cases hverdict
          | false => exact hhalts

/-- Nested parentheses around nothing, which takes two reductions that read nothing. -/
def nests : Grammar where
  start := .nonterminal "S"
  productions := [
    ⟨.nonterminal "S", [.terminal "(", .nonterminal "S", .terminal ")"]⟩,
    ⟨.nonterminal "S", [.nonterminal "A"]⟩,
    ⟨.nonterminal "A", [.epsilon]⟩]
  wellFormed := Grammar.wellFormed_of_fault?_eq_none (by decide)

theorem nests_productive : nests.Productive :=
  Grammar.productive_of_rank (fun symbol => if symbol = .nonterminal "A" then 0 else 1) (by decide)

/-- For `nests` there is a parser, and it ends on `( ( )`, which is no sentence, as on `( )`. -/
theorem answers_of_productive_nests :
    ∃ parser, ofFollow nests (FollowSets.ofGrammar nests (FirstSets.ofGrammar nests)) =
        .ok parser ∧
      parser.Answers ["(", ")"] true ∧ parser.Answers ["(", "(", ")"] false := by
  have hruns : ((ofFollow nests
      (FollowSets.ofGrammar nests (FirstSets.ofGrammar nests))).toOption.map
        fun parser => (parser.accepts ["(", ")"], parser.accepts ["(", "(", ")"])) =
      some (true, false) := by decide +kernel
  obtain ⟨parser, h, hanswers⟩ := exists_ok_of_toOption_map hruns
  obtain ⟨haccepted, hrefused⟩ := Prod.mk.inj hanswers
  refine ⟨parser, h, ?_, ?_⟩
  · have hanswer := answers_of_productive h nests_productive ["(", ")"]
    rwa [haccepted] at hanswer
  · have hanswer := answers_of_productive h nests_productive ["(", "(", ")"]
    rwa [hrefused] at hanswer

/-! ## Why the grammar has to be productive -/

/-- After `d` the symbol `U` is expected, which derives no word but begins with the empty `E`. -/
def endless : Grammar where
  start := .nonterminal "S"
  productions := [
    ⟨.nonterminal "S", [.nonterminal "E", .terminal "c"]⟩,
    ⟨.nonterminal "S", [.terminal "d", .nonterminal "U"]⟩,
    ⟨.nonterminal "U", [.nonterminal "E", .nonterminal "U"]⟩,
    ⟨.nonterminal "E", [.epsilon]⟩]
  wellFormed := Grammar.wellFormed_of_fault?_eq_none (by decide)

/-- For `endless` there is a parser, but before `c` it puts one `E` after another on `d`. -/
theorem not_answers_endless :
    ∃ parser, ofFollow endless (FollowSets.ofGrammar endless (FirstSets.ofGrammar endless)) =
        .ok parser ∧ ∀ accepted, ¬ parser.Answers ["d", "c"] accepted := by
  have hcells : ((ofFollow endless
      (FollowSets.ofGrammar endless (FirstSets.ofGrammar endless))).toOption.map
        fun parser => (parser.table.action? 0 (.terminal "d"),
          [1, 4].map fun state => (parser.table.action? state (.terminal "c"),
            parser.table.goto? state (.nonterminal "E")))) =
      some (some (.shift 1), [(some (.reduce 3), some 4), (some (.reduce 3), some 4)]) := by
    decide +kernel
  obtain ⟨parser, h, hcells⟩ := exists_ok_of_toOption_map hcells
  simp only [List.map_cons, List.map_nil, Prod.mk.injEq, List.cons.injEq, and_true] at hcells
  obtain ⟨hshift, hfirst, hlater⟩ := hcells
  have hreduces : ∀ frames, topState frames = 1 ∨ topState frames = 4 →
      Reduces endless parser (.terminal "c") frames (⟨.nonterminal "E", 4⟩ :: frames) := by
    intro frames hstate
    have hcell : parser.table.action? (topState frames) (.terminal "c") = some (.reduce 3) ∧
        parser.table.goto? (topState frames) (.nonterminal "E") = some 4 := by
      rcases hstate with hstate | hstate
      · rwa [hstate]
      · rwa [hstate]
    have hproduction : endless.production? 3 = some ⟨.nonterminal "E", [.epsilon]⟩ := rfl
    -- the body is empty, so nothing comes off the stack
    exact @Reduces.replace _ _ _ [] frames 3 4 _ hcell.1 hproduction rfl
      ((goto?_eq_some_iff h).mp hcell.2).1
  refine ⟨parser, h, fun accepted hanswer => ?_⟩
  have hrun : Halts parser.step ⟨[], [.terminal "d", .terminal "c"]⟩ accepted := hanswer
  rw [halts_iff_of_next (step_shifted hshift)] at hrun
  refine not_halts_of_forever (fun steps => ?_) hrun
  generalize hframes : [(⟨.terminal "d", 1⟩ : Frame)] = frames
  have hstate : topState frames = 1 ∨ topState frames = 4 := hframes ▸ .inl rfl
  clear hframes hrun
  induction steps generalizing frames with
  | zero => exact ⟨_, rfl⟩
  | succ steps ih =>
      have hreduction : Reduces endless parser (nextOf [.terminal "c"]) frames
          (⟨.nonterminal "E", 4⟩ :: frames) := hreduces frames hstate
      obtain ⟨production, hstep⟩ := hreduction.step_eq h
      rw [stateAfter_succ_of_next hstep]
      exact ih (⟨.nonterminal "E", 4⟩ :: frames) (.inr rfl)

end TableParsing.ShiftReduce.Parser
