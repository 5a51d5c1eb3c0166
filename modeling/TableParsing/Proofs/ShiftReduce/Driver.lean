import TableParsing.Proofs.Runs
import TableParsing.Proofs.Sets.First
import TableParsing.Proofs.ShiftReduce.Stack

/-!
# The shift-reduce driver

On a linked stack before a word, a step shifts the next symbol, reduces a body
that is spelled on top of the stack, accepts when the start symbol alone is left,
or has no action (`step_effect`); it never pops too much and never misses a goto,
whatever the FOLLOW sets.  A reduction reads a step of a derivation backwards, so
the start symbol derives whatever is accepted (`derives_of_halts_true`).
-/

namespace TableParsing.ShiftReduce.Parser

open Machine

variable {grammar : Grammar} {follow : FollowSets} {parser : Parser}

/-- A reduction before a lookahead: the body of a production is spelled on top of the stack, and its
left-hand side takes its place. -/
inductive Reduces (grammar : Grammar) (parser : Parser) (lookahead : Symbol) :
    List Frame → List Frame → Prop
  | replace {upper lower : List Frame} {rule target : Nat} {production : Production}
      (haction : parser.table.action? (topState (upper ++ lower)) lookahead =
        some (.reduce rule))
      (hproduction : grammar.production? rule = some production)
      (hspelled : spelled upper = production.body)
      (htarget : (Automaton.ofGrammar grammar).transition? (topState lower) production.lhs =
        some target) :
      Reduces grammar parser lookahead (upper ++ lower) (⟨production.lhs, target⟩ :: lower)

/-- The effects of a step: it shifts the next symbol, reduces, accepts with the start symbol alone
left, or has no action. -/
inductive Effect (grammar : Grammar) (parser : Parser) : Config → Step Config Move → Prop
  | shifted (frames : List Frame) (symbol : Symbol) (rest : List Symbol) (target : Nat)
      (haction : parser.table.action? (topState frames) symbol = some (.shift target))
      (htarget : (Automaton.ofGrammar grammar).transition? (topState frames) symbol =
        some target) :
      Effect grammar parser ⟨frames, symbol :: rest⟩
        (.next (.shifted symbol target) ⟨⟨symbol, target⟩ :: frames, rest⟩)
  | reduced (frames frames' : List Frame) (rest : List Symbol) (production : Production)
      (hreduces : Reduces grammar parser (nextOf rest) frames frames') :
      Effect grammar parser ⟨frames, rest⟩ (.next (.reduced production) ⟨frames', rest⟩)
  | accepted (state : Nat) :
      Effect grammar parser ⟨[⟨grammar.start, state⟩], []⟩ (.halt .accepted true)
  | blocked (frames : List Frame) (rest : List Symbol)
      (haction : parser.table.action? (topState frames) (nextOf rest) = none) :
      Effect grammar parser ⟨frames, rest⟩ (.halt (.blocked (topState frames) (nextOf rest)) false)

/-! ## Single steps -/

@[simp] theorem lookahead_eq (frames : List Frame) (rest : List Symbol) :
    (⟨frames, rest⟩ : Config).lookahead = nextOf rest := rfl

theorem step_shifted {frames : List Frame} {symbol : Symbol} {rest : List Symbol} {target : Nat}
    (haction : parser.table.action? (topState frames) symbol = some (.shift target)) :
    parser.step ⟨frames, symbol :: rest⟩ =
      .next (.shifted symbol target) ⟨⟨symbol, target⟩ :: frames, rest⟩ := by
  simp only [step, lookahead_eq, nextOf_cons, haction, List.tail_cons]

/-- A body that is spelled on top of the stack is replaced by the left-hand side. -/
theorem step_reduced (h : ofFollow grammar follow = .ok parser) {upper lower : List Frame}
    {rest : List Symbol} {rule target : Nat} {production : Production}
    (haction : parser.table.action? (topState (upper ++ lower)) (nextOf rest) =
      some (.reduce rule))
    (hproduction : grammar.production? rule = some production)
    (hspelled : spelled upper = production.body)
    (htarget : (Automaton.ofGrammar grammar).transition? (topState lower) production.lhs =
      some target) :
    parser.step ⟨upper ++ lower, rest⟩ =
      .next (.reduced production) ⟨⟨production.lhs, target⟩ :: lower, rest⟩ := by
  have hlength : production.body.length = upper.length := by rw [← hspelled, length_spelled]
  simp [step, lookahead_eq, haction, automaton_production? h hproduction, reduce, hlength,
    goto?_lhs h hproduction htarget]

/-- A reduction depends on nothing of the input but the next symbol. -/
theorem Reduces.step_eq (h : ofFollow grammar follow = .ok parser) {frames frames' : List Frame}
    {rest : List Symbol} (hreduces : Reduces grammar parser (nextOf rest) frames frames') :
    ∃ production, parser.step ⟨frames, rest⟩ = .next (.reduced production) ⟨frames', rest⟩ := by
  obtain @⟨upper, lower, rule, target, production, haction, hproduction, hspelled, htarget⟩ :=
    hreduces
  exact ⟨production, step_reduced h haction hproduction hspelled htarget⟩

theorem step_accepted {frames : List Frame}
    (haction : parser.table.action? (topState frames) .endMarker = some .accept) :
    parser.step ⟨frames, []⟩ = .halt .accepted true := by
  simp only [step, lookahead_eq, nextOf_nil, haction]

/-! ## What a step can do -/

theorem exists_reduces (h : ofFollow grammar follow = .ok parser) {frames : List Frame}
    (hlinked : Linked (Automaton.ofGrammar grammar) frames) {lookahead : Symbol} {rule : Nat}
    (haction : parser.table.action? (topState frames) lookahead = some (.reduce rule)) :
    ∃ frames', Reduces grammar parser lookahead frames frames' := by
  cases (action?_eq_some_iff h).mp haction with
  | @reduce item production lookahead hitem hnext hrule hproduction hlookahead =>
      have hown := Grammar.production?_of_augmented hproduction hrule
      -- the body lies on the stack, and below it the rule was predicted
      obtain ⟨upper, lower, rfl, hspelled, hinitial⟩ := hlinked.exists_origin hitem
      obtain ⟨target, htarget⟩ := hlinked.of_append.exists_transition?_lhs hown hinitial
      have hcomplete : item.next? grammar.augmented = none := hnext
      have hbefore : item.before grammar.augmented = production.body := by
        rw [Item.before_of_next?_eq_none hcomplete, Grammar.augmented_body_of_production? hown]
      exact ⟨_, .replace haction hown (hspelled.trans hbefore) htarget⟩

/-- On a linked stack before a word nothing else happens. -/
theorem step_effect (h : ofFollow grammar follow = .ok parser) {frames : List Frame}
    (hlinked : Linked (Automaton.ofGrammar grammar) frames) {rest : List Symbol}
    (hrest : IsWord rest) : Effect grammar parser ⟨frames, rest⟩ (parser.step ⟨frames, rest⟩) := by
  cases haction : parser.table.action? (topState frames) (nextOf rest) with
  | none =>
      simp only [step, lookahead_eq, haction]
      exact .blocked frames rest haction
  | some action =>
      cases action with
      | shift target =>
          cases rest with
          | nil =>
              cases (action?_eq_some_iff h).mp haction with
              | shift _ _ hkind => cases hkind
          | cons symbol rest =>
              rw [nextOf_cons] at haction
              rw [step_shifted haction]
              cases (action?_eq_some_iff h).mp haction with
              | shift _ _ _ htarget => exact .shifted frames symbol rest target haction htarget
      | reduce rule =>
          obtain ⟨frames', hreduces⟩ := exists_reduces h hlinked haction
          obtain ⟨production, hstep⟩ := hreduces.step_eq h
          rw [hstep]
          exact .reduced frames frames' rest production hreduces
      | accept =>
          have hdemand := (action?_eq_some_iff h).mp haction
          generalize hlookahead : nextOf rest = lookahead at haction hdemand
          cases hdemand with
          | accept hitem hnext hrule =>
              obtain rfl := nextOf_eq_endMarker hrest hlookahead
              rw [step_accepted haction]
              obtain ⟨state, rfl⟩ := hlinked.exists_eq_of_accepting hitem hnext hrule
              exact .accepted state

/-! ## What steps keep -/

theorem Reduces.linked {lookahead : Symbol} {frames frames' : List Frame}
    (hreduces : Reduces grammar parser lookahead frames frames')
    (hlinked : Linked (Automaton.ofGrammar grammar) frames) :
    Linked (Automaton.ofGrammar grammar) frames' := by
  obtain ⟨_, _, _, htarget⟩ := hreduces
  exact ⟨htarget, hlinked.of_append⟩

/-- A reduction reads a step of a derivation backwards. -/
theorem Reduces.derives {lookahead : Symbol} {frames frames' : List Frame}
    (hreduces : Reduces grammar parser lookahead frames frames') :
    grammar.Derives (spelled frames') (spelled frames) := by
  obtain @⟨upper, lower, rule, target, production, _, hproduction, hspelled, _⟩ := hreduces
  rw [spelled_cons, spelled_append, hspelled]
  have hstep := Grammar.derives_body (Grammar.mem_of_production? hproduction) (spelled lower) []
  rwa [List.append_nil] at hstep

/-! ## Soundness -/

theorem derives_of_halts_true (h : ofFollow grammar follow = .ok parser) {frames : List Frame}
    (hlinked : Linked (Automaton.ofGrammar grammar) frames) {rest : List Symbol}
    (hrest : IsWord rest) (hhalts : Halts parser.step ⟨frames, rest⟩ true) :
    grammar.Derives [grammar.start] (spelled frames ++ rest) := by
  obtain ⟨steps, hverdict⟩ := hhalts
  induction steps generalizing frames rest with
  | zero => cases hverdict
  | succ steps ih =>
      have heffect := step_effect h hlinked hrest
      generalize houtcome : parser.step ⟨frames, rest⟩ = outcome at heffect
      cases heffect with
      | shifted frames symbol rest target haction htarget =>
          rw [verdictWithin_succ_of_next houtcome] at hverdict
          have hnext : Linked (Automaton.ofGrammar grammar) (⟨symbol, target⟩ :: frames) :=
            ⟨htarget, hlinked⟩
          have hderives := ih hnext (isWord_cons.mp hrest).2 hverdict
          rwa [spelled_cons, List.append_assoc] at hderives
      | reduced frames frames' rest production hreduces =>
          rw [verdictWithin_succ_of_next houtcome] at hverdict
          have hderives := ih (hreduces.linked hlinked) hrest hverdict
          exact hderives.trans (hreduces.derives.append_right rest)
      | accepted state => exact Grammar.Derives.refl _
      | blocked frames rest =>
          rw [verdictWithin_of_halt houtcome] at hverdict
          cases hverdict

end TableParsing.ShiftReduce.Parser
