import TableParsing.Proofs.Predictive.Detection
import TableParsing.Proofs.Sets.Adjacency

/-!
# With its own sets the predictive driver makes progress

A table made from the sets of the grammar itself never lets a nonterminal unfold
to a stack with itself on top (`not_recurring`).  So the guard never refuses a
nonterminal, no warning is issued, and the plain driver ends on every input
(`never_refuses`), also for grammars that are left-recursive or that derive no
word.

What is predicted before a symbol of the input leads to that symbol.  The table
predicts a production because the symbol can begin its body, or because the body
can vanish and the symbol stands in FOLLOW of the left-hand side; with exact FIRST
sets either is a derivation that brings the symbol to the top of the stack
(`exists_exposed`).  `Grammar.Exposes` lists the productions that do this, always
for the symbol on top.  Each of them is the one that is predicted, as no two
productions claim a cell; so the driver takes the very steps of this derivation,
and they come to an end (`acc_of_exposes`).

What stands below the nonterminal does not matter to how it unfolds, so it may be
chosen for each case: a symbol that nothing begins with, or the symbol of the
input itself.  The stack of a run would not do, since the run may be about to
reject.
-/

namespace TableParsing

namespace Grammar

variable {grammar : Grammar} {next : Symbol}

/-- A symbol comes to stand on top of a stack by expansions of what is on top. -/
inductive Exposes (grammar : Grammar) (next : Symbol) : List Symbol → Prop
  | found (below : List Symbol) : Exposes grammar next (next :: below)
  | expand {production : Production} (h : production ∈ grammar.productions) {below : List Symbol}
      (hrest : Exposes grammar next (production.body ++ below)) :
      Exposes grammar next (production.lhs :: below)

/-- A step of a derivation is made when its place has come to the top, or not at all. -/
theorem Exposes.of_produces {before after : List Symbol} (hstep : grammar.Produces before after)
    (h : grammar.Exposes next after) : grammar.Exposes next before := by
  obtain @⟨production, hproduction, left, right⟩ := hstep
  have hexpand : ∀ form, production.body ++ right = form → grammar.Exposes next form →
      grammar.Exposes next (production.lhs :: right) := by
    rintro _ rfl hform
    exact .expand hproduction hform
  rw [List.append_assoc] at h
  generalize hform : left ++ (production.body ++ right) = form at h
  induction h generalizing left with
  | found below =>
      cases left with
      | nil => exact hexpand _ hform (.found below)
      | cons head left =>
          obtain ⟨rfl, _⟩ := List.cons.inj hform
          exact .found _
  | @expand other hother below hrest ih =>
      cases left with
      | nil => exact hexpand _ hform (.expand hother hrest)
      | cons head left =>
          rw [List.cons_append] at hform ⊢
          obtain ⟨rfl, rfl⟩ := List.cons.inj hform
          refine .expand hother ?_
          rw [← List.append_assoc]
          exact ih (other.body ++ left) (List.append_assoc ..)

/-- What a derived string begins with is exposed by leftmost steps. -/
theorem exposes_of_derives {symbols rest : List Symbol}
    (h : grammar.Derives symbols (next :: rest)) : grammar.Exposes next symbols := by
  induction h using Relation.ReflTransGen.head_induction_on with
  | refl => exact .found rest
  | head hstep _ ih => exact ih.of_produces hstep

theorem Exposes.mem_ofString {first : FirstSets} (hfirst : first.Closed grammar)
    (hnext : next.IsInput) {symbols : List Symbol} (h : grammar.Exposes next symbols) :
    next ∈ first.ofString symbols := by
  induction h with
  | found below =>
      rw [FirstSets.ofString_input hnext]
      exact SortedSet.mem_singleton.mpr rfl
  | @expand production hproduction below _ ih =>
      have hstep := Produces.replace hproduction [] below
      exact hfirst.mem_ofString_of_produces hstep ih

end Grammar

namespace Predictive.Parser

open Machine

variable {grammar : Grammar} {first : FirstSets} {follow : FollowSets} {parser : Parser}
  {next : Symbol}

/-! ## Unfolding comes to an end -/

/-- The unfolding of a form that exposes a symbol of the input comes to an end: there is one way to
unfold it, which leads to the symbol. -/
theorem acc_of_exposes (h : ofSets grammar first follow = .ok parser)
    (hfirst : first.Closed grammar) (hfollow : FollowSets.Closed grammar first follow)
    (hnext : next.IsInput) {front tail : List Symbol}
    (hcovers : FollowSets.Covers first follow tail front)
    (hexposes : grammar.Exposes next (front ++ tail)) :
    Acc (Function.swap (parser.Unfolds next)) front := by
  generalize hform : front ++ tail = form at hexposes
  induction hexposes generalizing front with
  | found below =>
      refine ⟨front, fun after hunfold => ?_⟩
      -- a symbol of the input is not expanded
      cases hunfold with
      | @expand symbol _ hkind _ under =>
          exact absurd (List.cons.inj hform).1 (hnext.ne_nonterminal hkind)
  | @expand production hproduction below hrest ih =>
      refine ⟨front, fun after hunfold => ?_⟩
      cases hunfold with
      | @expand symbol predicted hkind hpredict under =>
          obtain ⟨rfl, rfl⟩ := List.cons.inj hform
          -- what exposes the symbol is what is predicted before it
          obtain ⟨rule, hrule⟩ := Grammar.exists_production?_of_mem hproduction
          have hbegins := hrest.mem_ofString hfirst hnext
          have hclaimed := rule?_of_mem_ofString h hrule hcovers hnext.ne_epsilon hbegins
          have hsame := predict?_of_rule? h hrule hclaimed
          obtain rfl : production = predicted := Option.some.inj (hsame.symm.trans hpredict)
          have hstep := Grammar.Produces.replace hproduction [] under
          exact ih (hfollow.covers_of_produces hfirst hstep hcovers) (List.append_assoc ..)

theorem not_recurring_of_acc {symbol : Symbol} {front : List Symbol}
    (hacc : Acc (Function.swap (parser.Unfolds next)) [symbol]) :
    ¬ Relation.TransGen (parser.Unfolds next) [symbol] (symbol :: front) := by
  intro hround
  have hnever : ∀ form, Acc (Relation.TransGen (Function.swap (parser.Unfolds next))) form →
      ∀ below, form ≠ symbol :: below := by
    intro form hform
    induction hform with
    | intro form _ ih =>
        rintro below rfl
        have hagain := transGen_unfolds_append_right hround below
        exact ih _ (Relation.transGen_swap.mpr hagain) (front ++ below) rfl
  exact hnever [symbol] hacc.transGen [] rfl

/-! ## The grammar's own sets -/

section OwnSets

variable (h : ofSets grammar (FirstSets.ofGrammar grammar)
  (FollowSets.ofGrammar grammar (FirstSets.ofGrammar grammar)) = .ok parser)

include h

/-- Before a symbol of the input for which something is predicted, a nonterminal leads to that
symbol, with something suitable below. -/
private theorem exists_exposed (hnext : next.IsInput) {symbol : Symbol} {production : Production}
    (hpredict : parser.predict? symbol next = some production) :
    ∃ tail, grammar.Exposes next ([symbol] ++ tail) ∧
      FollowSets.Covers (FirstSets.ofGrammar grammar)
        (FollowSets.ofGrammar grammar (FirstSets.ofGrammar grammar)) tail [symbol] := by
  obtain ⟨rule, hrule, _⟩ := Option.bind_eq_some_iff.mp hpredict
  obtain ⟨claimed, hclaimed, rfl, hlookahead⟩ := (rule?_eq_some_iff h).mp hrule
  have hproduction := Grammar.mem_of_production? hclaimed
  have hkinds : ∀ symbol ∈ claimed.body, symbol.isTerminal = true ∨ symbol.isNonterminal = true :=
    fun symbol => Grammar.terminal_or_nonterminal_of_mem_body hproduction
  rw [Table.mem_lookaheads, ← FirstSets.ofString_body, FirstSets.mem_ofString_iff_begins hkinds,
    FirstSets.mem_ofString_iff_begins hkinds] at hlookahead
  rcases hlookahead with ⟨hbegins, hne⟩ | ⟨hnull, hbehind⟩
  · cases hbegins with
    | terminal hderives =>
        refine ⟨[grammar.augmentedStart], .expand hproduction ?_, FollowSets.covers_alone _ _⟩
        exact Grammar.exposes_of_derives (hderives.append_right [grammar.augmentedStart])
    | epsilon => exact absurd rfl hne
  · have hvanishes := (Grammar.begins_epsilon_iff.mp hnull).append_right [next]
    refine ⟨[next], .expand hproduction (Grammar.exposes_of_derives hvanishes), ?_, trivial⟩
    intro _ member hmember
    rw [List.nil_append, FirstSets.ofString_input hnext] at hmember
    have honly : member = next := SortedSet.mem_singleton.mp hmember
    exact honly ▸ hbehind

/-- Before a symbol of the input no nonterminal unfolds to a stack with itself on top. -/
theorem not_recurring (hnext : next.IsInput) (symbol : Symbol) (front : List Symbol) :
    ¬ Relation.TransGen (parser.Unfolds next) [symbol] (symbol :: front) := by
  intro hround
  -- the round begins with what is predicted for the nonterminal
  obtain ⟨_, hfirst, _⟩ := Relation.TransGen.head'_iff.mp hround
  cases hfirst with
  | expand hkind hpredict =>
      obtain ⟨tail, hexposes, hcovers⟩ := exists_exposed h hnext hpredict
      have hacc := acc_of_exposes h (FirstSets.ofGrammar_closed grammar)
        (FollowSets.ofGrammar_closed grammar _) hnext hcovers hexposes
      exact not_recurring_of_acc hacc hround

theorem not_fires (atoms : List String) : ¬ parser.Fires atoms := by
  rintro ⟨word, hatoms, steps, state, hrun, hrefused⟩
  have hstart := watched_start parser (Word.isWord_of_ofAtoms? hatoms)
  have hwatched := hstart.of_stateAfter h hrun
  obtain ⟨symbol, _, front, _, hround⟩ := hwatched.exists_recurrence hrefused
  exact not_recurring h (isInput_nextOf hwatched.word) symbol front hround

end OwnSets

/-- With the sets of the grammar itself, no nonterminal unfolds to a stack with itself on top before
a symbol of the input.  So every nonterminal that comes up in a run may be expanded, no warning is
issued, and the plain driver ends on every input with the answer of the parser. -/
theorem never_refuses
    (h : ofSets grammar (FirstSets.ofGrammar grammar)
      (FollowSets.ofGrammar grammar (FirstSets.ofGrammar grammar)) = .ok parser)
    (atoms : List String) :
    (∀ lookahead : Symbol, lookahead.IsInput → ∀ symbol front,
        ¬ Relation.TransGen (parser.Unfolds lookahead) [symbol] (symbol :: front)) ∧
      (∀ word, Word.ofAtoms? atoms = some word → ∀ steps state,
        stateAfter parser.guardedStep steps ⟨parser.start word, []⟩ = some state →
          ∀ symbol below, state.config.stack = symbol :: below → symbol.isNonterminal = true →
            ∃ pending, expand? state.expansions symbol below.length = some pending) ∧
      (∀ move ∈ parser.moves atoms, move.record.level ≠ .warn) ∧
      Machine.Answers parser.step parser.start atoms (parser.accepts atoms) := by
  have hquiet := not_fires h atoms
  refine ⟨fun lookahead hlookahead => not_recurring h hlookahead, ?_, ?_,
    answers_of_not_fires h hquiet⟩
  · intro word hatoms steps state hrun symbol below hstack hkind
    rw [← Option.isSome_iff_exists, Option.isSome_iff_ne_none]
    intro hexpand
    exact hquiet ⟨word, hatoms, steps, state, hrun, symbol, below, hstack, hkind, hexpand⟩
  · intro move hmove hlevel
    exact hquiet ((fires_iff_warns h atoms).mpr ⟨move, hmove, hlevel⟩)

/-- `L` begins with itself and `C` is nothing but itself; neither derives a word. -/
def deadEnds : Grammar where
  start := .nonterminal "S"
  productions := [
    ⟨.nonterminal "S", [.terminal "a", .nonterminal "N", .nonterminal "N", .nonterminal "S"]⟩,
    ⟨.nonterminal "S", [.terminal "b", .nonterminal "L"]⟩,
    ⟨.nonterminal "S", [.terminal "d", .nonterminal "C"]⟩,
    ⟨.nonterminal "S", [.epsilon]⟩,
    ⟨.nonterminal "N", [.epsilon]⟩,
    ⟨.nonterminal "L", [.nonterminal "L", .terminal "c"]⟩,
    ⟨.nonterminal "C", [.nonterminal "C"]⟩]
  wellFormed := Grammar.wellFormed_of_fault?_eq_none (by decide)

/-- Left recursion and a cycle do not keep `deadEnds` from having a table, which predicts nothing
for `L` and `C`: inputs that lead to them are rejected without a warning.  The second `N` behind an
`a` is expanded as well, the first one being done with. -/
theorem never_refuses_deadEnds :
    ∃ parser, ofSets deadEnds (FirstSets.ofGrammar deadEnds)
        (FollowSets.ofGrammar deadEnds (FirstSets.ofGrammar deadEnds)) = .ok parser ∧
      (∀ move ∈ parser.moves ["a", "b", "c"], move.record.level ≠ .warn) ∧
      Machine.Answers parser.step parser.start ["a", "b", "c"] false ∧
      Machine.Answers parser.step parser.start ["a", "d"] false ∧
      Machine.Answers parser.step parser.start ["a", "a"] true := by
  have hruns : ((ofSets deadEnds (FirstSets.ofGrammar deadEnds)
      (FollowSets.ofGrammar deadEnds (FirstSets.ofGrammar deadEnds))).toOption.map fun parser =>
        (parser.accepts ["a", "b", "c"], parser.accepts ["a", "d"], parser.accepts ["a", "a"])) =
      some (false, false, true) := by decide +kernel
  obtain ⟨parser, h, hruns⟩ := exists_ok_of_toOption_map hruns
  obtain ⟨hleft, hrest⟩ := Prod.mk.inj hruns
  obtain ⟨hcycle, hplain⟩ := Prod.mk.inj hrest
  obtain ⟨_, _, hsilent, hanswersLeft⟩ := never_refuses h ["a", "b", "c"]
  obtain ⟨_, _, _, hanswersCycle⟩ := never_refuses h ["a", "d"]
  obtain ⟨_, _, _, hanswersPlain⟩ := never_refuses h ["a", "a"]
  exact ⟨parser, h, hsilent, hleft ▸ hanswersLeft, hcycle ▸ hanswersCycle, hplain ▸ hanswersPlain⟩

end Predictive.Parser

end TableParsing
