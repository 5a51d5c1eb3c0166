import TableParsing.Proofs.Derivation
import TableParsing.Proofs.Runs
import TableParsing.Search

/-!
# What the search for derivations finds

`Search.derivesPrefix` looks for a leftmost derivation whose forms, after the
first one, are no longer than a bound.  Up to what its budget of expansions allows
it finds exactly these, and it ends whether or not they can all be listed
(`derivesPrefix_exact`).  The one exception is the largest word as a budget: the
count of expanded forms never exceeds it, so that a search among forms that lead
back to themselves goes on until the count overflows, and comes to no answer
(`not_answers_of_largest`).

## Strategy

The two lists of a queue matter only as the sequence of the forms in the order in
which they are taken out (`Queue.toList`).  What a round can come to is said once
for that sequence (`Outcome`, `outcome_round`), and everything else follows by
going through its cases.

* **Soundness** follows the rounds of a run.  A larger budget changes nothing as
  long as the smaller one is not spent (`round_of_le`).
* **Completeness.**  A form in front is looked at at once, and whatever stands
  before a form is gone after finitely many expansions (`enough_of_front`).
  So the forms of a derivation come to the front one after the other, although
  other forms join the queue without end.
* **Termination.**  Where a nonterminal leads back to itself the queue never becomes
  empty, but a form takes at most as many forms into the queue as there are
  productions, and only as long as the count is below the budget
  (`exists_answerWithin`).
-/
namespace TableParsing

namespace Grammar

variable (grammar : Grammar)

/-- One step of a leftmost derivation: before the left-hand side stands no nonterminal. -/
inductive ProducesLeft : List Symbol → List Symbol → Prop
  | replace {production : Production} (h : production ∈ grammar.productions)
      {before : List Symbol} (hbefore : ∀ symbol ∈ before, symbol.isNonterminal = false)
      (after : List Symbol) :
      ProducesLeft (before ++ production.lhs :: after) (before ++ production.body ++ after)

/-- Any number of steps of a leftmost derivation, each of them to a form of at most `longest`
symbols. -/
def DerivesLeftWithin (longest : Nat) : List Symbol → List Symbol → Prop :=
  Relation.ReflTransGen fun form next => grammar.ProducesLeft form next ∧ next.length ≤ longest

variable {grammar}

theorem DerivesLeftWithin.derives {longest : Nat} {first second : List Symbol}
    (h : grammar.DerivesLeftWithin longest first second) : grammar.Derives first second := by
  induction h with
  | refl => exact Derives.refl _
  | tail _ hstep ih =>
      obtain ⟨⟨hproduction, _, after⟩, _⟩ := hstep
      exact ih.trans (derives_body hproduction _ after)

/-- Nothing is replaced before the first nonterminal. -/
theorem ProducesLeft.exists_cons {symbol : Symbol} {rest next : List Symbol}
    (h : grammar.ProducesLeft (symbol :: rest) next) (hkind : symbol.isNonterminal = false) :
    ∃ behind, next = symbol :: behind := by
  generalize hform : symbol :: rest = form at h
  obtain @⟨production, hproduction, before, hbefore, after⟩ := h
  cases before with
  | nil =>
      obtain ⟨rfl, _⟩ := List.cons.inj hform
      rw [lhs_isNonterminal hproduction] at hkind
      cases hkind
  | cons first others =>
      obtain ⟨rfl, _⟩ := List.cons.inj hform
      exact ⟨others ++ production.body ++ after, rfl⟩

/-- What stands in front and is no nonterminal stays there. -/
theorem DerivesLeftWithin.exists_cons {longest : Nat} {symbol : Symbol} {rest final : List Symbol}
    (h : grammar.DerivesLeftWithin longest (symbol :: rest) final)
    (hkind : symbol.isNonterminal = false) : ∃ behind, final = symbol :: behind := by
  induction h with
  | refl => exact ⟨rest, rfl⟩
  | tail _ hstep ih =>
      obtain ⟨behind, rfl⟩ := ih
      exact hstep.1.exists_cons hkind

theorem ProducesLeft.exists_body {symbol : Symbol} {rest next : List Symbol}
    (h : grammar.ProducesLeft (symbol :: rest) next) (hkind : symbol.isNonterminal = true) :
    ∃ production ∈ grammar.productions, production.lhs = symbol ∧ next = production.body ++ rest := by
  generalize hform : symbol :: rest = form at h
  obtain @⟨production, hproduction, before, hbefore, after⟩ := h
  cases before with
  | nil =>
      obtain ⟨rfl, rfl⟩ := List.cons.inj hform
      exact ⟨production, hproduction, rfl, rfl⟩
  | cons first others =>
      obtain ⟨rfl, _⟩ := List.cons.inj hform
      rw [hbefore symbol List.mem_cons_self] at hkind
      cases hkind

end Grammar

namespace Search

variable {width : Nat} {overflow : Overflow} {grammar : Grammar} {terminal : Symbol} {longest : Nat}
  {budget : BitVec width} {symbol : Symbol} {form rest : List Symbol} {forms : List (List Symbol)}

/-! ## Expanding a form -/

theorem mem_expansions {next : List Symbol} :
    next ∈ expansions grammar longest symbol rest ↔
      (∃ production ∈ grammar.productions, production.lhs = symbol ∧
        next = production.body ++ rest) ∧ next.length ≤ longest := by
  simp only [expansions, Grammar.alternatives, List.map_map, List.mem_filter, List.mem_map,
    Function.comp_apply, decide_eq_true_eq, and_congr_left_iff]
  intro _
  constructor
  · rintro ⟨rule, hrule, rfl⟩
    obtain ⟨production, hproduction, hlhs⟩ := Grammar.mem_rulesFor.mp hrule
    rw [Grammar.body_of_production? hproduction]
    exact ⟨production, Grammar.mem_of_production? hproduction, hlhs, rfl⟩
  · rintro ⟨production, hproduction, hlhs, rfl⟩
    obtain ⟨rule, hrule⟩ := Grammar.exists_production?_of_mem hproduction
    refine ⟨rule, Grammar.mem_rulesFor.mpr ⟨production, hrule, hlhs⟩, ?_⟩
    rw [Grammar.body_of_production? hrule]

theorem derivesLeftWithin_of_mem_expansions {next : List Symbol}
    (h : next ∈ expansions grammar longest symbol rest) :
    grammar.DerivesLeftWithin longest (symbol :: rest) next := by
  obtain ⟨⟨production, hproduction, rfl, rfl⟩, hlength⟩ := mem_expansions.mp h
  have hfront : ∀ symbol ∈ ([] : List Symbol), symbol.isNonterminal = false := fun _ h => nomatch h
  exact .single ⟨.replace hproduction hfront rest, hlength⟩

theorem length_expansions_le :
    (expansions grammar longest symbol rest).length ≤ grammar.productions.length :=
  calc (expansions grammar longest symbol rest).length
      ≤ ((grammar.alternatives symbol).map (· ++ rest)).length := List.length_filter_le _ _
    _ = (grammar.rulesFor symbol).length := by simp only [Grammar.alternatives, List.length_map]
    _ ≤ grammar.productions.zipIdx.length := by
        rw [Grammar.rulesFor, List.length_map]
        exact List.length_filter_le _ _
    _ = grammar.productions.length := List.length_zipIdx

/-! ## Rounds -/

variable {queue left : Queue width}

/-- The forms of a queue, the next one first. -/
def Queue.toList (queue : Queue width) : List (List Symbol) := queue.waiting ++ queue.found.reverse

@[simp] theorem Queue.toList_start : (start form : Queue width).toList = [form] := rfl

theorem Queue.toList_eq_nil (h : queue.pop? = none) : queue.toList = [] := by
  obtain ⟨waiting, found, expanded⟩ := queue
  unfold pop? at h
  split at h
  · cases h
  · rename_i hwaiting
    split at h
    · cases h
    · rename_i hfound
      simp only [toList, hfound, List.append_nil]
      exact hwaiting

/-- The form that is taken out is the first one, and the others stay as they are. -/
theorem Queue.toList_eq_cons (h : queue.pop? = some (form, left)) :
    queue.toList = form :: left.toList ∧ left.expanded = queue.expanded := by
  obtain ⟨waiting, found, expanded⟩ := queue
  unfold pop? at h
  split at h
  · rename_i hwaiting
    cases h
    exact ⟨congrArg (· ++ found.reverse) hwaiting, rfl⟩
  · rename_i hwaiting
    split at h
    · rename_i hfound
      cases h
      refine ⟨?_, rfl⟩
      simp only [toList, hfound, List.reverse_nil, List.append_nil]
      exact congrArg (· ++ _) hwaiting
    · cases h

/-- What a round comes to, by the forms of the queue and the number of those expanded. -/
inductive Outcome (overflow : Overflow) (grammar : Grammar) (terminal : Symbol) (longest : Nat)
    (budget count : BitVec width) : List (List Symbol) → Round width → Prop
  | ended : Outcome overflow grammar terminal longest budget count [] (.answer false)
  | empty {left : Queue width} (hcount : left.expanded = count) :
      Outcome overflow grammar terminal longest budget count ([] :: left.toList) (.next left)
  | found {rest : List Symbol} {forms : List (List Symbol)} (hkind : terminal.isTerminal = true) :
      Outcome overflow grammar terminal longest budget count ((terminal :: rest) :: forms)
        (.answer true)
  | passed {symbol : Symbol} {rest : List Symbol} {left : Queue width}
      (hkind : symbol.isTerminal = true) (hother : symbol ≠ terminal)
      (hcount : left.expanded = count) :
      Outcome overflow grammar terminal longest budget count ((symbol :: rest) :: left.toList)
        (.next left)
  | overflowed {symbol : Symbol} {rest : List Symbol} {forms : List (List Symbol)}
      (hkind : symbol.isTerminal = false) (habort : overflow = .aborts)
      (hlargest : count = .allOnes width) :
      Outcome overflow grammar terminal longest budget count ((symbol :: rest) :: forms) .aborted
  | spent {symbol : Symbol} {rest : List Symbol} {forms : List (List Symbol)}
      (hkind : symbol.isTerminal = false) (hspent : budget < count + 1) :
      Outcome overflow grammar terminal longest budget count ((symbol :: rest) :: forms)
        (.answer false)
  | expanded {symbol : Symbol} {rest : List Symbol} {forms : List (List Symbol)}
      {left : Queue width} (hkind : symbol.isTerminal = false) (hbudget : count + 1 ≤ budget)
      (hforms : left.toList = forms ++ expansions grammar longest symbol rest)
      (hcount : left.expanded = count + 1) :
      Outcome overflow grammar terminal longest budget count ((symbol :: rest) :: forms)
        (.next left)

section Outcome

variable (overflow grammar terminal longest budget)

private theorem outcome_expand (hkind : symbol.isTerminal = false) (queue : Queue width) :
    Outcome overflow grammar terminal longest budget queue.expanded
      ((symbol :: rest) :: queue.toList)
      (expand overflow grammar longest budget symbol rest queue) := by
  unfold expand raise?
  split
  · rename_i hraise
    split at hraise
    · rename_i hlargest
      exact .overflowed hkind hlargest.1 hlargest.2
    · cases hraise
  · rename_i raised hraise
    split at hraise
    · cases hraise
    · cases hraise
      split
      · rename_i hspent
        exact .spent hkind hspent
      · rename_i hbudget
        refine .expanded hkind (BitVec.not_lt.mp hbudget) ?_ rfl
        simp [Queue.toList]

theorem outcome_round (queue : Queue width) :
    Outcome overflow grammar terminal longest budget queue.expanded queue.toList
      (round overflow grammar terminal longest budget queue) := by
  unfold round
  split
  · rename_i hpop
    rw [Queue.toList_eq_nil hpop]
    exact .ended
  · rename_i hpop
    obtain ⟨hforms, hcount⟩ := Queue.toList_eq_cons hpop
    rw [hforms]
    exact .empty hcount
  · rename_i symbol rest left hpop
    obtain ⟨hforms, hcount⟩ := Queue.toList_eq_cons hpop
    rw [hforms]
    split
    · rename_i hkind
      split
      · rename_i hsame
        subst hsame
        exact .found hkind
      · rename_i hother
        exact .passed hkind hother hcount
    · rename_i hkind
      rw [← hcount]
      exact outcome_expand _ _ _ _ _ (Bool.eq_false_iff.mpr hkind) left

/-- The round of a queue with known forms is one of the cases for them. -/
private theorem exists_outcome (hforms : queue.toList = forms) :
    ∃ reached, round overflow grammar terminal longest budget queue = reached ∧
      Outcome overflow grammar terminal longest budget queue.expanded forms reached :=
  ⟨_, rfl, hforms ▸ outcome_round overflow grammar terminal longest budget queue⟩

end Outcome

/-! ## Answers -/

/-- The search comes to an answer from a queue on. -/
def Answers (overflow : Overflow) (grammar : Grammar) (terminal : Symbol) (longest : Nat)
    (budget : BitVec width) (queue : Queue width) (found : Bool) : Prop :=
  ∃ rounds, answerWithin overflow grammar terminal longest budget rounds queue = some found

variable {rounds : Nat} {found : Bool}

theorem answerWithin_succ_of_next
    (hround : round overflow grammar terminal longest budget queue = .next left) :
    answerWithin overflow grammar terminal longest budget (rounds + 1) queue =
      answerWithin overflow grammar terminal longest budget rounds left := by
  simp only [answerWithin, hround]

theorem answerWithin_of_answer
    (hround : round overflow grammar terminal longest budget queue = .answer found) :
    answerWithin overflow grammar terminal longest budget (rounds + 1) queue = some found := by
  simp only [answerWithin, hround]

theorem answerWithin_of_aborted
    (hround : round overflow grammar terminal longest budget queue = .aborted) :
    answerWithin overflow grammar terminal longest budget rounds queue = none := by
  cases rounds with
  | zero => rfl
  | succ rounds => simp only [answerWithin, hround]

theorem Answers.of_answer
    (hround : round overflow grammar terminal longest budget queue = .answer found) :
    Answers overflow grammar terminal longest budget queue found :=
  ⟨1, answerWithin_of_answer hround⟩

theorem Answers.of_next
    (hround : round overflow grammar terminal longest budget queue = .next left)
    (h : Answers overflow grammar terminal longest budget left found) :
    Answers overflow grammar terminal longest budget queue found := by
  obtain ⟨rounds, h⟩ := h
  exact ⟨rounds + 1, (answerWithin_succ_of_next hround).trans h⟩

/-- An answer comes from the first round, or from the rounds after it. -/
private theorem answerWithin_succ_eq_some
    (h : answerWithin overflow grammar terminal longest budget (rounds + 1) queue = some found) :
    round overflow grammar terminal longest budget queue = .answer found ∨
      ∃ left, round overflow grammar terminal longest budget queue = .next left ∧
        answerWithin overflow grammar terminal longest budget rounds left = some found := by
  cases hround : round overflow grammar terminal longest budget queue with
  | answer own =>
      rw [answerWithin_of_answer hround, Option.some.injEq] at h
      exact .inl (congrArg _ h)
  | next left => exact .inr ⟨left, rfl, answerWithin_succ_of_next hround ▸ h⟩
  | aborted =>
      rw [answerWithin_of_aborted hround] at h
      cases h

theorem answerWithin_of_le {more : Nat} (hle : rounds ≤ more)
    (h : answerWithin overflow grammar terminal longest budget rounds queue = some found) :
    answerWithin overflow grammar terminal longest budget more queue = some found := by
  induction rounds generalizing queue more with
  | zero => cases h
  | succ rounds ih =>
      obtain ⟨more, rfl⟩ : ∃ fewer, more = fewer + 1 := ⟨more - 1, by omega⟩
      rcases answerWithin_succ_eq_some h with hround | ⟨left, hround, hlater⟩
      · exact answerWithin_of_answer hround
      · rw [answerWithin_succ_of_next hround]
        exact ih (Nat.le_of_succ_le_succ hle) hlater

theorem Answers.unique {other : Bool}
    (h : Answers overflow grammar terminal longest budget queue found)
    (hother : Answers overflow grammar terminal longest budget queue other) : other = found := by
  obtain ⟨rounds, h⟩ := h
  obtain ⟨more, hother⟩ := hother
  have hboth := answerWithin_of_le (Nat.le_max_left rounds more) h
  rw [answerWithin_of_le (Nat.le_max_right rounds more) hother] at hboth
  exact Option.some.inj hboth

/-! ## Soundness and the budget -/

/-- What is found is derived from a form of the queue. -/
theorem exists_derivesLeftWithin_of_answerWithin
    (h : answerWithin overflow grammar terminal longest budget rounds queue = some true) :
    ∃ form ∈ queue.toList, ∃ behind,
      grammar.DerivesLeftWithin longest form (terminal :: behind) := by
  induction rounds generalizing queue with
  | zero => cases h
  | succ rounds ih =>
      have houtcome := outcome_round overflow grammar terminal longest budget queue
      rcases answerWithin_succ_eq_some h with hround | ⟨left, hround, hlater⟩
      · rw [hround] at houtcome
        generalize queue.toList = forms at houtcome
        cases houtcome with
        | found => exact ⟨_, List.mem_cons_self, _, .refl⟩
      · obtain ⟨form, hform, behind, hderives⟩ := ih hlater
        rw [hround] at houtcome
        generalize queue.toList = forms at houtcome
        cases houtcome with
        | empty | passed => exact ⟨form, List.mem_cons_of_mem _ hform, behind, hderives⟩
        | expanded _ _ hforms =>
            rw [hforms] at hform
            rcases List.mem_append.mp hform with hwaiting | hexpansion
            · exact ⟨form, List.mem_cons_of_mem _ hwaiting, behind, hderives⟩
            · have hstep := derivesLeftWithin_of_mem_expansions hexpansion
              exact ⟨_, List.mem_cons_self, behind, hstep.trans hderives⟩

/-- A round that does not spend the budget is the same with a larger one. -/
private theorem round_of_le {more : BitVec width} (hle : budget ≤ more)
    (h : round overflow grammar terminal longest budget queue ≠ .answer false) :
    round overflow grammar terminal longest more queue =
      round overflow grammar terminal longest budget queue := by
  unfold round at h ⊢
  split at h
  · rfl
  · rfl
  · split at h
    · rename_i hkind
      rw [if_pos hkind, if_pos hkind]
    · rename_i symbol rest left hkind
      rw [if_neg hkind, if_neg hkind]
      unfold expand at h ⊢
      split at h
      · rfl
      · split at h
        · exact absurd rfl h
        · rename_i raised _ hbudget
          have hmore : ¬ more < raised :=
            BitVec.not_lt.mpr (BitVec.le_trans (BitVec.not_lt.mp hbudget) hle)
          rw [if_neg hbudget, if_neg hmore]

theorem Answers.mono {more : BitVec width} (hle : budget ≤ more)
    (h : Answers overflow grammar terminal longest budget queue true) :
    Answers overflow grammar terminal longest more queue true := by
  obtain ⟨rounds, h⟩ := h
  induction rounds generalizing queue with
  | zero => cases h
  | succ rounds ih =>
      rcases answerWithin_succ_eq_some h with hround | ⟨left, hround, hlater⟩
      · refine .of_answer ((round_of_le hle ?_).trans hround)
        rw [hround]
        exact fun hfalse => nomatch hfalse
      · refine .of_next ((round_of_le hle ?_).trans hround) (ih hlater)
        rw [hround]
        exact fun hfalse => nomatch hfalse

/-! ## Completeness -/

private theorem toNat_add_one {count : BitVec width} (h : count ≠ .allOnes width) :
    (count + 1).toNat = count.toNat + 1 := by
  have hlast : count.toNat ≠ 2 ^ width - 1 := fun hsame =>
    h (BitVec.eq_of_toNat_eq (hsame.trans BitVec.toNat_allOnes.symm))
  have hlt := count.isLt
  have hpos : 1 < 2 ^ width := by omega
  have hone : (BitVec.ofNat width 1).toNat = 1 := by
    rw [BitVec.toNat_ofNat, Nat.mod_eq_of_lt hpos]
  show (count + BitVec.ofNat width 1).toNat = _
  rw [BitVec.toNat_add_of_lt (by omega), hone]

private theorem ne_allOnes_of_lt {count : BitVec width} (h : count.toNat < budget.toNat) :
    count ≠ .allOnes width := by
  rintro rfl
  exact BitVec.not_allOnes_lt (BitVec.lt_def.mpr h)

/-- Some budget is enough to find a terminal from a queue on, and so is every larger one, whatever
the width of the words. -/
def Enough (grammar : Grammar) (terminal : Symbol) (longest : Nat) (forms : List (List Symbol)) :
    Prop :=
  ∃ bound, ∀ (width : Nat) (overflow : Overflow) (budget : BitVec width) (queue : Queue width),
    queue.toList = forms → queue.expanded.toNat + bound ≤ budget.toNat →
      Answers overflow grammar terminal longest budget queue true

theorem enough_of_mem_front (h : terminal.isTerminal = true) (forms : List (List Symbol)) :
    Enough grammar terminal longest ((terminal :: rest) :: forms) := by
  refine ⟨0, fun width overflow budget queue hforms _ => ?_⟩
  obtain ⟨_, hround, houtcome⟩ := exists_outcome overflow grammar terminal longest budget hforms
  cases houtcome with
  | found => exact .of_answer hround
  | passed _ hother => exact absurd rfl hother
  | overflowed hkind | spent hkind | expanded hkind =>
      rw [h] at hkind
      cases hkind

theorem Enough.empty (h : Enough grammar terminal longest forms) :
    Enough grammar terminal longest ([] :: forms) := by
  obtain ⟨bound, hbound⟩ := h
  refine ⟨bound, fun width overflow budget queue hforms hle => ?_⟩
  obtain ⟨_, hround, houtcome⟩ := exists_outcome overflow grammar terminal longest budget hforms
  cases houtcome with
  | empty hcount => exact .of_next hround (hbound _ _ _ _ rfl (hcount ▸ hle))

theorem Enough.passed (hkind : symbol.isTerminal = true)
    (h : Enough grammar terminal longest forms) :
    Enough grammar terminal longest ((symbol :: rest) :: forms) := by
  obtain ⟨bound, hbound⟩ := h
  refine ⟨bound, fun width overflow budget queue hforms hle => ?_⟩
  obtain ⟨_, hround, houtcome⟩ := exists_outcome overflow grammar terminal longest budget hforms
  cases houtcome with
  | found => exact .of_answer hround
  | passed _ _ hcount => exact .of_next hround (hbound _ _ _ _ rfl (hcount ▸ hle))
  | overflowed hother | spent hother | expanded hother =>
      rw [hkind] at hother
      cases hother

/-- The expansion of a form costs one. -/
theorem Enough.expanded (hkind : symbol.isTerminal = false)
    (h : Enough grammar terminal longest (forms ++ expansions grammar longest symbol rest)) :
    Enough grammar terminal longest ((symbol :: rest) :: forms) := by
  obtain ⟨bound, hbound⟩ := h
  refine ⟨bound + 1, fun width overflow budget queue hforms hle => ?_⟩
  have hlt : queue.expanded.toNat < budget.toNat := by omega
  have hnext := ne_allOnes_of_lt hlt
  have hraised := toNat_add_one hnext
  obtain ⟨_, hround, houtcome⟩ := exists_outcome overflow grammar terminal longest budget hforms
  cases houtcome with
  | found hother | passed hother =>
      rw [hkind] at hother
      cases hother
  | overflowed _ _ hlargest => exact absurd hlargest hnext
  | spent _ hspent =>
      have := BitVec.lt_def.mp hspent
      omega
  | expanded _ _ hnextForms hcount =>
      exact .of_next hround (hbound _ _ _ _ hnextForms (by rw [hcount]; omega))

/-- If a form leads to a terminal from the front of every queue, it does so from any place. -/
theorem enough_of_front
    (h : ∀ after, Enough grammar terminal longest (form :: after)) (before after : List (List Symbol)) :
    Enough grammar terminal longest (before ++ form :: after) := by
  induction before generalizing after with
  | nil => exact h after
  | cons first before ih =>
      rcases first with _ | ⟨symbol, rest⟩
      · exact (ih after).empty
      · cases hkind : symbol.isTerminal with
        | true => exact (ih after).passed hkind
        | false =>
            -- what is added stands behind the form
            have hlater := ih (after ++ expansions grammar longest symbol rest)
            exact Enough.expanded hkind (by simpa using hlater)

/-- With a large enough budget every bounded leftmost derivation of a terminal is found, wherever its
first form stands in the queue. -/
theorem enough_of_derivesLeftWithin (hterminal : terminal.isTerminal = true)
    {behind : List Symbol} (h : grammar.DerivesLeftWithin longest form (terminal :: behind))
    (before after : List (List Symbol)) :
    Enough grammar terminal longest (before ++ form :: after) := by
  induction h using Relation.ReflTransGen.head_induction_on generalizing before after with
  | refl => exact enough_of_front (enough_of_mem_front hterminal) before after
  | @head form next hstep hlater ih =>
      refine enough_of_front (fun after => ?_) before after
      cases form with
      | nil =>
          obtain ⟨hproduces, _⟩ := hstep
          generalize hempty : [] = form at hproduces
          cases hproduces
          simp at hempty
      | cons symbol rest =>
          cases hkind : symbol.isNonterminal with
          | false =>
              -- no later step changes what is in front, so that the search ends here
              obtain ⟨behind, hfinal⟩ := Grammar.DerivesLeftWithin.exists_cons
                (.head hstep hlater) hkind
              obtain ⟨rfl, _⟩ := List.cons.inj hfinal
              exact enough_of_mem_front hterminal after
          | true =>
              obtain ⟨production, hproduction, hlhs, hnext⟩ := hstep.1.exists_body hkind
              have hexpansion : next ∈ expansions grammar longest symbol rest :=
                mem_expansions.mpr ⟨⟨production, hproduction, hlhs, hnext⟩, hstep.2⟩
              obtain ⟨front, back, hsplit⟩ := List.append_of_mem hexpansion
              refine Enough.expanded (Bool.eq_false_iff.mpr
                (Symbol.not_isTerminal_of_isNonterminal hkind)) ?_
              rw [hsplit, ← List.append_assoc]
              exact ih (after ++ front) back

/-! ## Termination -/

/-- A bound on the rounds that are left: every form of the queue may be taken out, and a form that is
expanded brings in at most one for each production. -/
def roundsLeft (grammar : Grammar) (budget count : BitVec width) (forms : List (List Symbol)) : Nat :=
  forms.length + (budget.toNat - count.toNat) * grammar.productions.length

/-- An expansion takes off more rounds than the queue grows by. -/
private theorem roundsLeft_expanded_lt {count : BitVec width} (hnext : count ≠ .allOnes width)
    (hbudget : count + 1 ≤ budget) :
    roundsLeft grammar budget (count + 1) (forms ++ expansions grammar longest symbol rest) <
      roundsLeft grammar budget count ((symbol :: rest) :: forms) := by
  have hraised := toNat_add_one hnext
  have hle := BitVec.le_def.mp hbudget
  obtain ⟨more, hmore⟩ : ∃ more, budget.toNat = count.toNat + 1 + more :=
    ⟨budget.toNat - (count.toNat + 1), by omega⟩
  have hfew : (expansions grammar longest symbol rest).length ≤ grammar.productions.length :=
    length_expansions_le
  have hspent : count.toNat + 1 + more - count.toNat = more + 1 := by omega
  simp only [roundsLeft, List.length_append, List.length_cons, hraised, hmore,
    Nat.add_sub_cancel_left, hspent, Nat.add_mul, Nat.one_mul]
  omega

/-- If the budget is not the largest word, an answer comes in as many rounds as are left at most. -/
theorem exists_answerWithin (hbudget : budget ≠ .allOnes width) (hcount : queue.expanded ≤ budget)
    (h : roundsLeft grammar budget queue.expanded queue.toList < rounds) :
    ∃ found, answerWithin overflow grammar terminal longest budget rounds queue = some found := by
  induction rounds generalizing queue with
  | zero => cases h
  | succ rounds ih =>
      have hnext : queue.expanded ≠ .allOnes width := fun hlargest =>
        hbudget (BitVec.allOnes_le_iff.mp (hlargest ▸ hcount))
      generalize hforms : queue.toList = forms at h
      obtain ⟨_, hround, houtcome⟩ := exists_outcome overflow grammar terminal longest budget hforms
      cases houtcome with
      | ended | found | spent => exact ⟨_, answerWithin_of_answer hround⟩
      | overflowed _ _ hlargest => exact absurd hlargest hnext
      | empty hsame | passed _ _ hsame =>
          rw [answerWithin_succ_of_next hround]
          refine ih (hsame ▸ hcount) ?_
          simp only [roundsLeft, List.length_cons, hsame] at h ⊢
          omega
      | expanded _ hleft hnextForms hraised =>
          rw [answerWithin_succ_of_next hround]
          refine ih (hraised ▸ hleft) ?_
          rw [hnextForms, hraised]
          exact Nat.lt_of_lt_of_le (roundsLeft_expanded_lt hnext hleft) (Nat.le_of_lt_succ h)

/-! ## All budgets -/

/-- The search ends with every budget but the largest word, and its answer does not depend on what an
overflow does.  A terminal that it finds, with whatever budget, begins the last form of a leftmost
derivation whose forms after the first are no longer than `longest`; it is found with every larger
budget too; and if there is such a derivation, then all budgets from some bound on are enough, in
words of any width. -/
theorem derivesPrefix_exact (grammar : Grammar) (form : List Symbol) (atom : String)
    (longest : Nat) (overflow : Overflow) :
    (∀ (width : Nat) (budget : BitVec width), budget ≠ .allOnes width → ∃ found,
      derivesPrefix overflow grammar form (.terminal atom) longest budget = some found ∧
        ∀ other, Answers overflow grammar (.terminal atom) longest budget (.start form) other ↔
          other = found) ∧
    (∀ (width : Nat) (budget : BitVec width),
      Answers overflow grammar (.terminal atom) longest budget (.start form) true →
        ∃ rest, grammar.DerivesLeftWithin longest form (.terminal atom :: rest)) ∧
    (∀ (width : Nat) (budget more : BitVec width), budget ≤ more →
      Answers overflow grammar (.terminal atom) longest budget (.start form) true →
        Answers overflow grammar (.terminal atom) longest more (.start form) true) ∧
    ((∃ rest, grammar.DerivesLeftWithin longest form (.terminal atom :: rest)) →
      ∃ bound, ∀ (width : Nat) (budget : BitVec width), bound ≤ budget.toNat →
        Answers overflow grammar (.terminal atom) longest budget (.start form) true) := by
  refine ⟨fun width budget hbudget => ?_, fun width budget hfound => ?_,
    fun width budget more hle => .mono hle, ?_⟩
  · have hbound : roundsLeft grammar budget 0 [form] <
        budget.toNat * grammar.productions.length + 2 := by
      simp [roundsLeft]
      omega
    have hzero : (Queue.start form).expanded ≤ budget := BitVec.le_def.mpr (by simp [Queue.start])
    obtain ⟨found, hanswer⟩ := exists_answerWithin hbudget hzero hbound
    exact ⟨found, hanswer, fun other =>
      ⟨Answers.unique ⟨_, hanswer⟩, fun hsame => hsame ▸ ⟨_, hanswer⟩⟩⟩
  · obtain ⟨rounds, hanswer⟩ := hfound
    obtain ⟨first, hfirst, hderives⟩ := exists_derivesLeftWithin_of_answerWithin hanswer
    obtain rfl : first = form := by simpa using hfirst
    exact hderives
  · rintro ⟨rest, hderives⟩
    obtain ⟨bound, hbound⟩ := enough_of_derivesLeftWithin rfl hderives [] []
    refine ⟨bound, fun width budget hle => hbound width overflow budget _ rfl ?_⟩
    simpa [Queue.start] using hle

/-- `S` leads to itself and to two of its kind, so that no queue with it becomes empty. -/
def restless : Grammar where
  start := .nonterminal "S"
  productions := [
    ⟨.nonterminal "S", [.nonterminal "S"]⟩,
    ⟨.nonterminal "S", [.nonterminal "S", .nonterminal "S"]⟩,
    ⟨.nonterminal "S", [.epsilon]⟩,
    ⟨.nonterminal "S", [.terminal "a"]⟩]
  wellFormed := Grammar.wellFormed_of_fault?_eq_none (by decide)

/-- In `restless`, all large budgets are enough to find `a`, through `S S`.  A budget of a million is
not enough to find `b`, and the search for it ends. -/
theorem derivesPrefix_exact_restless :
    (∃ bound, ∀ (width : Nat) (budget : BitVec width), bound ≤ budget.toNat →
      Answers .wraps restless (.terminal "a") 2 budget (.start [.nonterminal "S"]) true) ∧
    derivesPrefix .aborts restless [.nonterminal "S"] (.terminal "b") 2 (BitVec.ofNat 64 1000000) =
      some false := by
  obtain ⟨_, _, _, hcomplete⟩ := derivesPrefix_exact restless [.nonterminal "S"] "a" 2 .wraps
  obtain ⟨hends, hsound, _, _⟩ := derivesPrefix_exact restless [.nonterminal "S"] "b" 2 .aborts
  constructor
  · have hdouble : (⟨.nonterminal "S", [.nonterminal "S", .nonterminal "S"]⟩ : Production) ∈
        restless.productions := by decide
    have hsingle : (⟨.nonterminal "S", [.terminal "a"]⟩ : Production) ∈ restless.productions := by
      decide
    have hfront : ∀ symbol ∈ ([] : List Symbol), symbol.isNonterminal = false := by simp
    exact hcomplete ⟨[.nonterminal "S"],
      .tail (.single ⟨.replace hdouble hfront [], by decide⟩)
        ⟨.replace hsingle hfront [.nonterminal "S"], by decide⟩⟩
  · obtain ⟨found, hfound, hanswers⟩ := hends 64 (BitVec.ofNat 64 1000000) (by decide)
    cases found with
    | false => exact hfound
    | true =>
        -- a derivation would bring in a terminal that the grammar does not have
        obtain ⟨rest, hderives⟩ := hsound 64 (BitVec.ofNat 64 1000000) ((hanswers true).mpr rfl)
        have hmem := Grammar.Derives.mem_terminals hderives.derives (.terminal "b")
          List.mem_cons_self rfl
        exact absurd hmem (by decide)

/-- `S` leads to itself and to nothing else. -/
def circle : Grammar where
  start := .nonterminal "S"
  productions := [⟨.nonterminal "S", [.nonterminal "S"]⟩]
  wellFormed := Grammar.wellFormed_of_fault?_eq_none (by decide)

/-- Nothing exceeds the largest word, so with it the form `S` is expanded to itself again and again,
up to the overflow and beyond. -/
theorem answerWithin_circle {queue : Queue width} (hforms : queue.toList = [[.nonterminal "S"]]) :
    answerWithin overflow circle (.terminal "a") 1 (.allOnes width) rounds queue = none := by
  induction rounds generalizing queue with
  | zero => rfl
  | succ rounds ih =>
      generalize hsame : queue.toList = forms at hforms
      obtain ⟨_, hround, houtcome⟩ :=
        exists_outcome overflow circle (.terminal "a") 1 (.allOnes width) hsame
      cases houtcome with
      | ended | empty | found => cases hforms
      | passed hkind =>
          obtain ⟨hfirst, _⟩ := List.cons.inj hforms
          cases hfirst
          cases hkind
      | overflowed => exact answerWithin_of_aborted hround
      | spent _ hspent => exact absurd hspent BitVec.not_allOnes_lt
      | expanded _ _ hnext =>
          cases hforms
          rw [answerWithin_succ_of_next hround]
          exact ih hnext

/-- With the largest word of 64 bits as a budget the search in `circle` comes to no answer, whether the
count wraps around or the run is broken off. -/
theorem not_answers_of_largest :
    (¬ ∃ found, Answers .wraps circle (.terminal "a") 1 (.allOnes 64) (.start [.nonterminal "S"])
      found) ∧
    ¬ ∃ found, Answers .aborts circle (.terminal "a") 1 (.allOnes 64) (.start [.nonterminal "S"])
      found := by
  constructor
  · rintro ⟨found, rounds, h⟩
    rw [answerWithin_circle rfl] at h
    cases h
  · rintro ⟨found, rounds, h⟩
    rw [answerWithin_circle rfl] at h
    cases h

end Search

end TableParsing
