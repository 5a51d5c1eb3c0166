import Mathlib.Tactic.Linarith
import Mathlib.Tactic.Ring
import TableParsing.Proofs.Predictive.Guard

/-!
# The guarded driver always ends

For any sets, the guarded driver reaches a verdict on every word, within
`stepBound` steps (`exists_verdict`).  The bound comes from a potential.

At one input position a symbol on the stack can still lead to expansions of
those nonterminals only that are not pending around it.  A symbol that `n`
entries of the guard stand below is therefore charged `base ^ (N - n)`, where
`base` is one more than the length of the longest body and `N` the number of
nonterminals: an expansion replaces one charge by less than `base` charges of
the next smaller power (`load_expanded`).  Reading a symbol clears the entries,
which raises the charges of the symbols above the lowest entry only, and the
entries are spaced closely enough to bound how many these are (`load_nil_le`);
the rise is paid from an allowance of `N * longestBody * base ^ N` for each
symbol of the word.
-/

namespace TableParsing.Predictive

open Machine

/-! ## The charge of a stack -/

/-- The number of entries at a height or below. -/
def pendingCount (expansions : List Expansion) (height : Nat) : Nat :=
  expansions.countP fun expansion => expansion.below ≤ height

/-- The charge of a stack: for each symbol a power of `base`, with an exponent that is less by one
for each entry that stands below the symbol. -/
def load (base nonterminals : Nat) (expansions : List Expansion) : List Symbol → Nat
  | [] => 0
  | _ :: below =>
    base ^ (nonterminals - pendingCount expansions below.length) +
      load base nonterminals expansions below

variable {base nonterminals width : Nat} {expansions : List Expansion}

theorem pendingCount_nil (height : Nat) : pendingCount [] height = 0 := rfl

theorem load_nil (stack : List Symbol) :
    load base nonterminals [] stack = stack.length * base ^ nonterminals := by
  induction stack with
  | nil => simp [load]
  | cons symbol below ih =>
      rw [load, ih, pendingCount_nil, Nat.sub_zero, List.length_cons, Nat.succ_mul, Nat.add_comm]

theorem pendingCount_pendingAt {top height low : Nat} (h : Spaced width top expansions)
    (hle : low ≤ height) :
    pendingCount (pendingAt height expansions) low = pendingCount expansions low := by
  induction expansions generalizing top with
  | nil => rfl
  | cons first rest ih =>
      by_cases hdrop : height < first.below
      · have hskip : pendingCount (first :: rest) low = pendingCount rest low :=
          List.countP_cons_of_neg (by simp only [decide_eq_true_eq]; omega)
        rw [pendingAt, List.dropWhile_cons_of_pos (by simpa using hdrop), hskip]
        exact ih h.2.2
      · rw [pendingAt, List.dropWhile_cons_of_neg (by simpa using hdrop)]

theorem pendingCount_eq_length {height : Nat}
    (h : ∀ expansion ∈ expansions, expansion.below ≤ height) :
    pendingCount expansions height = expansions.length :=
  List.countP_eq_length.mpr fun expansion hexpansion => by simpa using h expansion hexpansion

/-! ## Expansions -/

/-- A new entry and the dropped ones make no difference for the symbols below them. -/
private theorem load_below {top height : Nat} (h : Spaced width top expansions) (nonterminal : Symbol)
    {stack : List Symbol} (hstack : stack.length ≤ height) :
    load base nonterminals (⟨nonterminal, height⟩ :: pendingAt height expansions) stack =
      load base nonterminals expansions stack := by
  induction stack with
  | nil => rfl
  | cons symbol below ih =>
      have hlow : below.length < height := hstack
      have hcount : pendingCount (⟨nonterminal, height⟩ :: pendingAt height expansions)
          below.length = pendingCount expansions below.length := by
        rw [← pendingCount_pendingAt h hlow.le]
        exact List.countP_cons_of_neg (by simpa using hlow)
      rw [load, load, hcount, ih hlow.le]

/-- Symbols above all entries have the smallest charge. -/
private theorem load_append_of_le {height : Nat} (h : ∀ expansion ∈ expansions, expansion.below ≤ height)
    (front : List Symbol) {below : List Symbol} (hbelow : height ≤ below.length) :
    load base nonterminals expansions (front ++ below) =
      front.length * base ^ (nonterminals - expansions.length) +
        load base nonterminals expansions below := by
  induction front with
  | nil => simp
  | cons symbol front ih =>
      have hcount : pendingCount expansions (front ++ below).length = expansions.length := by
        apply pendingCount_eq_length
        intro expansion hexpansion
        have := h expansion hexpansion
        simp only [List.length_append]
        omega
      rw [List.cons_append, load, ih, hcount, List.length_cons]
      ring

/-- An expansion lowers the charge, as long as some nonterminal is not pending. -/
theorem load_expanded {top : Nat} (h : Spaced width top expansions) (nonterminal : Symbol)
    {body below : List Symbol} (htop : below.length ≤ top) (hbody : body.length ≤ width)
    (hfew : (pendingAt below.length expansions).length < nonterminals) :
    load (width + 1) nonterminals
        (⟨nonterminal, below.length⟩ :: pendingAt below.length expansions) (body ++ below) <
      load (width + 1) nonterminals expansions (nonterminal :: below) := by
  have hspaced := h.pendingAt htop
  have hlow : ∀ expansion ∈ (⟨nonterminal, below.length⟩ : Expansion) ::
      pendingAt below.length expansions, expansion.below ≤ below.length := by
    intro expansion hexpansion
    rcases List.mem_cons.mp hexpansion with rfl | hexpansion
    · exact Nat.le_refl _
    · exact hspaced.below_le expansion hexpansion
  have hcount : pendingCount expansions below.length =
      (pendingAt below.length expansions).length := by
    rw [← pendingCount_pendingAt h (Nat.le_refl _), pendingCount_eq_length hspaced.below_le]
  rw [load_append_of_le hlow body (Nat.le_refl _), load_below h nonterminal (Nat.le_refl _), load,
    hcount, List.length_cons]
  -- one charge is replaced by no more than `width` charges of the next smaller power
  obtain ⟨exponent, hexponent⟩ : ∃ exponent,
      nonterminals - (pendingAt below.length expansions).length = exponent + 1 :=
    ⟨nonterminals - (pendingAt below.length expansions).length - 1, by omega⟩
  have hless : nonterminals - ((pendingAt below.length expansions).length + 1) = exponent := by
    omega
  rw [hexponent, hless, Nat.pow_succ]
  have hpositive : 0 < (width + 1) ^ exponent := Nat.pow_pos (Nat.succ_pos width)
  have hcharges : body.length * (width + 1) ^ exponent ≤ width * (width + 1) ^ exponent :=
    Nat.mul_le_mul_right _ hbody
  have hpower : (width + 1) ^ exponent * (width + 1) =
      width * (width + 1) ^ exponent + (width + 1) ^ exponent := by ring
  omega

/-! ## Reading a symbol -/

/-- Some height is below all entries and, by their spacing, not far below the top. -/
theorem Spaced.exists_lowest {top : Nat} (h : Spaced width top expansions) :
    ∃ lowest ≤ top, (∀ expansion ∈ expansions, lowest ≤ expansion.below) ∧
      top ≤ lowest + expansions.length * width := by
  induction expansions generalizing top with
  | nil => exact ⟨top, Nat.le_refl _, by simp, by simp⟩
  | cons first rest ih =>
      obtain ⟨lowest, hle, hbelow, htop⟩ := ih h.2.2
      refine ⟨lowest, hle.trans h.1, ?_, ?_⟩
      · intro expansion hexpansion
        rcases List.mem_cons.mp hexpansion with rfl | hexpansion
        · exact hle
        · exact hbelow expansion hexpansion
      · have := h.2.1
        rw [List.length_cons, Nat.succ_mul]
        omega

private theorem length_mul_le_load {lowest : Nat}
    (h : ∀ expansion ∈ expansions, lowest ≤ expansion.below) (stack : List Symbol) :
    stack.length * base ^ nonterminals ≤
      load base nonterminals expansions stack +
        (stack.length - lowest) * base ^ nonterminals := by
  induction stack with
  | nil => simp
  | cons symbol below ih =>
      rw [load, List.length_cons, Nat.succ_mul]
      by_cases hlow : below.length < lowest
      · have hcount : pendingCount expansions below.length = 0 :=
          List.countP_eq_zero.mpr fun expansion hexpansion => by
            have := h expansion hexpansion
            simp only [decide_eq_true_eq]
            omega
        have hnone : below.length - lowest = 0 := by omega
        rw [hnone] at ih
        rw [hcount, Nat.sub_zero]
        omega
      · have hmore : below.length + 1 - lowest = below.length - lowest + 1 := by omega
        rw [hmore, Nat.succ_mul]
        omega

/-- Clearing the entries raises the charge by no more than the spacing of the entries allows. -/
private theorem load_nil_le (base : Nat) {top : Nat} (h : Spaced width top expansions) {stack : List Symbol}
    (hstack : stack.length ≤ top) (hfew : expansions.length ≤ nonterminals) :
    load base nonterminals [] stack ≤
      load base nonterminals expansions stack + nonterminals * width * base ^ nonterminals := by
  obtain ⟨lowest, _, hlowest, htop⟩ := h.exists_lowest
  rw [load_nil]
  refine (length_mul_le_load hlowest stack).trans (Nat.add_le_add_left ?_ _)
  apply Nat.mul_le_mul_right
  have := Nat.mul_le_mul_right width hfew
  omega

/-! ## The bound -/

namespace Parser

variable {grammar : Grammar} {first : FirstSets} {follow : FollowSets} {parser : Parser}

/-- The potential of a state: the charge of its stack and an allowance for each symbol to read. -/
def potential (parser : Parser) (state : Guarded) : Nat :=
  let nonterminals := parser.grammar.nonterminals.size
  let width := parser.grammar.longestBody
  state.config.rest.length * (nonterminals * width * (width + 1) ^ nonterminals) +
    load (width + 1) nonterminals state.expansions state.config.stack

theorem Watched.length_le {state : Guarded} (h : parser.Watched state) :
    state.expansions.length ≤ parser.grammar.nonterminals.size := by
  have hsubset : ∀ symbol ∈ state.expansions.map Expansion.nonterminal,
      symbol ∈ parser.grammar.nonterminals.toList := by
    intro symbol hsymbol
    obtain ⟨expansion, hexpansion, rfl⟩ := List.mem_map.mp hsymbol
    exact h.known expansion hexpansion
  have := h.distinct.length_le_of_subset hsubset
  rwa [List.length_map] at this

/-- Every step of the guarded driver lowers the potential. -/
theorem Watched.potential_lt (h : ofSets grammar first follow = .ok parser)
    {state following : Guarded} {move : Move} (hwatched : parser.Watched state)
    (hstep : parser.guardedStep state = .next move following) :
    parser.potential following < parser.potential state := by
  have hafter := (hwatched.step h hstep).length_le
  obtain ⟨⟨stack, rest⟩, expansions⟩ := state
  have hspaced : Spaced parser.grammar.longestBody stack.length expansions := hwatched.spaced
  have hbefore : expansions.length ≤ parser.grammar.nonterminals.size := hwatched.length_le
  have heffect := parser.guardedStep_effect expansions hwatched.proper hwatched.word
  rw [hstep] at heffect
  cases heffect with
  | matched symbol below rest =>
      -- the allowance of the symbol that is read pays for clearing the entries
      have hrise := load_nil_le (parser.grammar.longestBody + 1) hspaced
        (Nat.le_succ below.length) hbefore
      have hpositive : 0 < (parser.grammar.longestBody + 1) ^ (parser.grammar.nonterminals.size -
          pendingCount expansions below.length) := Nat.pow_pos (Nat.succ_pos _)
      simp only [potential, List.length_cons, load, Nat.succ_mul]
      omega
  | expanded symbol below rest _ pending production hkind hexpand hpredict =>
      obtain ⟨rfl, _⟩ := expand?_eq_some hexpand
      have hbody := Grammar.length_body_le (mem_of_predict? h hpredict).1
      rw [← (exists_table_of_ofSets h).1] at hbody
      have hless := load_expanded hspaced symbol (Nat.le_succ below.length) hbody hafter
      simp only [potential]
      omega

/-- A run that is watched ends before its potential is used up. -/
theorem Watched.exists_verdict (h : ofSets grammar first follow = .ok parser) {state : Guarded}
    (hwatched : parser.Watched state) {steps : Nat} (hsteps : parser.potential state < steps) :
    ∃ accepted, verdictWithin parser.guardedStep steps state = some accepted := by
  induction steps generalizing state with
  | zero => omega
  | succ steps ih =>
      cases hstep : parser.guardedStep state with
      | halt move accepted => exact ⟨accepted, verdictWithin_of_halt hstep⟩
      | next move following =>
          rw [verdictWithin_succ_of_next hstep]
          have := hwatched.potential_lt h hstep
          exact ih (hwatched.step h hstep) (by omega)

theorem potential_start_lt (parser : Parser) (word : List Symbol) :
    parser.potential ⟨parser.start word, []⟩ < parser.stepBound word := by
  simp only [potential, start, load_nil, List.length_singleton, stepBound]
  generalize parser.grammar.nonterminals.size = nonterminals
  generalize parser.grammar.longestBody = width
  have hpower : Nat.pow (width + 1) (nonterminals + 1) =
      (width + 1) ^ nonterminals * (width + 1) := Nat.pow_succ ..
  rw [hpower]
  generalize (width + 1) ^ nonterminals = charge
  nlinarith [Nat.zero_le (word.length * nonterminals * charge), Nat.zero_le (word.length * charge),
    Nat.zero_le (word.length * width * charge), Nat.zero_le (nonterminals * charge),
    Nat.zero_le (nonterminals * width * charge), Nat.zero_le (width * charge)]

theorem exists_verdict (h : ofSets grammar first follow = .ok parser) {word : List Symbol}
    (hword : IsWord word) :
    ∃ accepted, verdictWithin parser.guardedStep (parser.stepBound word)
      ⟨parser.start word, []⟩ = some accepted :=
  (watched_start parser hword).exists_verdict h (parser.potential_start_lt word)

theorem halts_acceptsWord (h : ofSets grammar first follow = .ok parser) {word : List Symbol}
    (hword : IsWord word) :
    Halts parser.guardedStep ⟨parser.start word, []⟩ (parser.acceptsWord word) := by
  obtain ⟨accepted, hverdict⟩ := exists_verdict h hword
  refine ⟨parser.stepBound word, ?_⟩
  rw [acceptsWord, hverdict, Option.getD_some]

end Parser

end TableParsing.Predictive
