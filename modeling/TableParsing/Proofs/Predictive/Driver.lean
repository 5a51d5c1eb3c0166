import TableParsing.Proofs.Predictive.Table
import TableParsing.Proofs.Runs

/-!
# The plain predictive driver

The driver without its guard, which a table drives for ever or to a verdict.
With any sets, what it accepts can be derived from the symbols on its stack
(`derives_of_halts_true`).  With sets that satisfy the demands of the grammar it
also accepts everything that can: it walks along the trees of the stack, one step
for each of their nodes and leaves (`halts_true_of_parses`).
-/

namespace TableParsing.Predictive.Parser

open Machine

variable {grammar : Grammar} {first : FirstSets} {follow : FollowSets} {parser : Parser}

/-! ## Single steps -/

@[simp] theorem lookahead_eq (stack rest : List Symbol) :
    (⟨stack, rest⟩ : Config).lookahead = nextOf rest := rfl

theorem step_nil_nil (parser : Parser) :
    parser.step ⟨[], []⟩ = .halt (.matched .endMarker) true := rfl

theorem step_matched (parser : Parser) (symbol : Symbol) (below rest : List Symbol) :
    parser.step ⟨symbol :: below, symbol :: rest⟩ = .next (.matched symbol) ⟨below, rest⟩ := by
  simp [step]

theorem step_nonterminal {symbol : Symbol} (hkind : symbol.isNonterminal = true)
    {below rest : List Symbol} (hrest : IsWord rest) :
    parser.step ⟨symbol :: below, rest⟩ =
      match parser.predict? symbol (nextOf rest) with
      | some production => .next (.expanded production) ⟨production.body ++ below, rest⟩
      | none => .halt (.unpredicted symbol (nextOf rest)) false := by
  have hne := (isInput_nextOf hrest).ne_nonterminal hkind
  show (if symbol = nextOf rest then _ else if symbol.isNonterminal then _ else _) = _
  rw [if_neg hne, if_pos hkind]
  rfl

theorem step_expanded {symbol : Symbol} (hkind : symbol.isNonterminal = true)
    {below rest : List Symbol} (hrest : IsWord rest) {production : Production}
    (hpredict : parser.predict? symbol (nextOf rest) = some production) :
    parser.step ⟨symbol :: below, rest⟩ =
      .next (.expanded production) ⟨production.body ++ below, rest⟩ := by
  rw [step_nonterminal hkind hrest, hpredict]

/-! ## What a step can do -/

/-- No end marker comes to stand on the stack. -/
def Proper (stack : List Symbol) : Prop := Symbol.endMarker ∉ stack

theorem proper_start (grammar : Grammar) : Proper [grammar.start] := by
  intro h
  have hkind := grammar.start_isNonterminal
  rw [← List.mem_singleton.mp h] at hkind
  cases hkind

theorem Proper.tail {symbol : Symbol} {below : List Symbol} (h : Proper (symbol :: below)) :
    Proper below :=
  fun hmem => h (List.mem_cons_of_mem _ hmem)

theorem Proper.expand {symbol : Symbol} {below : List Symbol} (h : Proper (symbol :: below))
    {production : Production} (hproduction : production ∈ grammar.productions) :
    Proper (production.body ++ below) := by
  intro hmem
  rcases List.mem_append.mp hmem with hbody | hbelow
  · rcases Grammar.terminal_or_nonterminal_of_mem_body hproduction hbody with h | h <;> cases h
  · exact h.tail hbelow

/-- The effects of a step: it matches a terminal, expands a nonterminal by what is predicted, accepts
the empty word on the empty stack, or rejects. -/
inductive Effect (parser : Parser) : Config → Step Config Move → Prop
  | matched (symbol : Symbol) (below rest : List Symbol) :
      Effect parser ⟨symbol :: below, symbol :: rest⟩ (.next (.matched symbol) ⟨below, rest⟩)
  | expanded (symbol : Symbol) (below rest : List Symbol) (production : Production)
      (hkind : symbol.isNonterminal = true)
      (hpredict : parser.predict? symbol (nextOf rest) = some production) :
      Effect parser ⟨symbol :: below, rest⟩
        (.next (.expanded production) ⟨production.body ++ below, rest⟩)
  | accepted : Effect parser ⟨[], []⟩ (.halt (.matched .endMarker) true)
  | rejected (config : Config) (move : Move) : Effect parser config (.halt move false)

/-- Before a word, and without end markers on the stack, nothing else happens. -/
theorem step_effect (parser : Parser) {stack rest : List Symbol} (hproper : Proper stack)
    (hrest : IsWord rest) : Effect parser ⟨stack, rest⟩ (parser.step ⟨stack, rest⟩) := by
  cases stack with
  | nil =>
      cases rest with
      | nil => exact .accepted
      | cons symbol tail =>
          have hne : symbol ≠ .endMarker := by
            rintro rfl
            cases (isWord_cons.mp hrest).1
          simp only [step, lookahead_eq, nextOf_cons, hne, if_false]
          exact .rejected _ _
  | cons symbol below =>
      by_cases hmatch : symbol = nextOf rest
      · cases rest with
        -- no end marker stands on the stack to match the end of the input
        | nil => exact absurd (hmatch ▸ List.mem_cons_self) hproper
        | cons next tail =>
            rw [nextOf_cons] at hmatch
            subst hmatch
            rw [step_matched]
            exact .matched symbol below tail
      · by_cases hkind : symbol.isNonterminal = true
        · rw [step_nonterminal hkind hrest]
          split
          · rename_i production hpredict
            exact .expanded symbol below rest production hkind hpredict
          · exact .rejected _ _
        · simp only [step, lookahead_eq, hmatch, hkind, if_false]
          exact .rejected _ _

/-! ## Soundness -/

theorem derives_of_halts_true (h : ofSets grammar first follow = .ok parser)
    {stack rest : List Symbol} (hproper : Proper stack) (hrest : IsWord rest)
    (hhalts : Halts parser.step ⟨stack, rest⟩ true) : grammar.Derives stack rest := by
  obtain ⟨steps, hverdict⟩ := hhalts
  induction steps generalizing stack rest with
  | zero => cases hverdict
  | succ steps ih =>
      have heffect := parser.step_effect hproper hrest
      generalize houtcome : parser.step ⟨stack, rest⟩ = outcome at heffect
      cases heffect with
      | matched symbol below rest =>
          rw [verdictWithin_succ_of_next houtcome] at hverdict
          exact (ih hproper.tail (isWord_cons.mp hrest).2 hverdict).cons symbol
      | expanded symbol below rest production hkind hpredict =>
          rw [verdictWithin_succ_of_next houtcome] at hverdict
          obtain ⟨hproduction, rfl⟩ := mem_of_predict? h hpredict
          exact (Grammar.derives_body hproduction [] below).trans
            (ih (hproper.expand hproduction) hrest hverdict)
      | accepted => exact Grammar.Derives.refl _
      | rejected config move =>
          rw [verdictWithin_of_halt houtcome] at hverdict
          cases hverdict

/-! ## Completeness -/

/-- The driver takes symbols with their trees off the stack and the word of the trees off the
input, whatever word what stands below them derives. -/
theorem stateAfter_of_parses (h : ofSets grammar first follow = .ok parser)
    (hfirst : first.Closed grammar) (hfollow : FollowSets.Closed grammar first follow)
    {symbols below : List Symbol} {trees : List Tree} {word rest : List Symbol}
    (htrees : grammar.Parses symbols trees word)
    (hcovers : FollowSets.Covers first follow [.endMarker] (symbols ++ below))
    (hbelow : grammar.Derives below rest) (hrest : IsWord rest) :
    ∃ steps, stateAfter parser.step steps ⟨symbols ++ below, word ++ rest⟩ =
      some ⟨below, rest⟩ := by
  induction htrees generalizing below rest with
  | nil => exact ⟨0, rfl⟩
  | leaf atom _ ih =>
      obtain ⟨steps, hsteps⟩ := ih hcovers.2 hbelow hrest
      refine ⟨1 + steps, ?_⟩
      rw [List.cons_append, List.cons_append, stateAfter_add (stateAfter_one (step_matched ..))]
      exact hsteps
  | node hrule hlhs htree hafter ihBelow ihAfter =>
      subst hlhs
      rename_i rule production children yield symbols trees word
      have hproduction := Grammar.mem_of_production? hrule
      have hkind := Grammar.lhs_isNonterminal hproduction
      have hbehind := hafter.derives.append hbelow
      have hbehindWord := isWord_append.mpr ⟨hafter.isWord, hrest⟩
      have hpredict := predict?_of_rule? h hrule
        (rule?_of_parses h hfirst hrule htree hcovers hbehind hbehindWord)
      have hbody := hfollow.covers_of_produces hfirst
        (Grammar.Produces.replace hproduction [] (symbols ++ below)) hcovers
      obtain ⟨inner, hinner⟩ := ihBelow hbody hbehind hbehindWord
      obtain ⟨outer, houter⟩ := ihAfter hcovers.2 hbelow hrest
      refine ⟨1 + (inner + outer), ?_⟩
      rw [List.append_assoc, List.cons_append, stateAfter_add (stateAfter_one
        (step_expanded hkind (isWord_append.mpr ⟨htree.isWord, hbehindWord⟩) hpredict))]
      exact stateAfter_trans hinner houter

theorem halts_true_of_parses (h : ofSets grammar first follow = .ok parser)
    (hfirst : first.Closed grammar) (hfollow : FollowSets.Closed grammar first follow)
    {stack : List Symbol} {trees : List Tree} {word : List Symbol}
    (htrees : grammar.Parses stack trees word)
    (hcovers : FollowSets.Covers first follow [.endMarker] stack) :
    Halts parser.step ⟨stack, word⟩ true := by
  have hempty : FollowSets.Covers first follow [.endMarker] (stack ++ []) := by simpa using hcovers
  obtain ⟨steps, hsteps⟩ := stateAfter_of_parses h hfirst hfollow htrees hempty
    (Grammar.Derives.refl []) isWord_nil
  rw [List.append_nil, List.append_nil] at hsteps
  exact (halts_iff_of_stateAfter hsteps).mpr (halts_of_halt (step_nil_nil parser))

end TableParsing.Predictive.Parser
