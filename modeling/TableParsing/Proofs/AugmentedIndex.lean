import TableParsing.Proofs.Augmentation
import TableParsing.Proofs.GrammarIndex

/-!
# The index of an augmented grammar

A grammar that keeps its index does not build a new one when it is augmented.  It
looks for a new name among the nonterminals that it has kept, enters the new start
symbol with the one new rule, and checks nothing.  The productions and the index
that it keeps then are nevertheless those that would be made from the new list of
productions (`Indexed.augmented_indexed`), and so they stay when the grammar is
augmented again (`Indexed.Made.exists_indexed`).

What makes this work is that the new name is new.  Rules of the new start symbol
that were there before would be lost, as its list of rules is replaced and not
extended; and with an occurrence of it in a body the new grammar would derive what
the old one does not.
-/

namespace TableParsing.Grammar

/-! ## The search for a new name -/

/-- A name with some primes behind it. -/
def primed (name : String) : Nat → String
  | 0 => name
  | primes + 1 => primed (name.push '\'') primes

/-- The search goes on while the name is taken, and ends at the first one that is not. -/
private theorem exists_freshName_eq (taken : List String) (name : String) :
    ∃ primes, freshName taken name = primed name primes ∧ primed name primes ∉ taken ∧
      ∀ fewer < primes, primed name fewer ∈ taken := by
  fun_induction freshName taken name with
  | case1 name htaken ih =>
      obtain ⟨primes, hfresh, hfree, hfewer⟩ := ih
      refine ⟨primes + 1, hfresh, hfree, fun fewer hlt => ?_⟩
      cases fewer with
      | zero => exact htaken
      | succ fewer => exact hfewer fewer (Nat.lt_of_succ_lt_succ hlt)
  | case2 name hfree => exact ⟨0, rfl, hfree, fun _ hlt => absurd hlt (Nat.not_lt_zero _)⟩

/-! ## Grammars that keep their index -/

/-- Enters a new start symbol with its one rule. -/
def Index.enterStart (index : Index) (start : Symbol) (rule : Nat) : Index :=
  { index with
    nonterminals := index.nonterminals.insert start
    rules := index.rules.insert start [rule] }

/-- A start symbol and productions with their index. -/
structure Indexed where
  start : Symbol
  productions : List Production
  index : Index
deriving DecidableEq

/-- A grammar, with its index. -/
def indexed (grammar : Grammar) : Indexed := ⟨grammar.start, grammar.productions, grammar.index⟩

namespace Indexed

def build (start : Symbol) (productions : List Production) : Except GrammarError Indexed :=
  (Index.build start productions).map fun index => ⟨start, productions, index⟩

/-- Adds a start symbol with a new name and its production, and enters it into the index.  The number
of the production comes along. -/
def augmented (kept : Indexed) : Indexed × Nat :=
  let start := Symbol.nonterminal (freshName (kept.index.nonterminals.toList.map Symbol.atom)
    (kept.start.atom.push '\''))
  let productions := kept.productions ++ [⟨start, [kept.start]⟩]
  let rule := productions.length - 1
  (⟨start, productions, kept.index.enterStart start rule⟩, rule)

/-- What is made by building and then augmenting any number of times. -/
inductive Made : Indexed → Prop
  | build {start : Symbol} {productions : List Production} {kept : Indexed}
      (h : build start productions = .ok kept) : Made kept
  | augmented {kept : Indexed} (h : Made kept) : Made kept.augmented.1

end Indexed

variable {grammar : Grammar}

/-! ## The new start symbol -/

/-- The new name is the old one with primes, and with one prime less it would be that of another
nonterminal. -/
private theorem exists_augmentedStart_eq (grammar : Grammar) :
    ∃ primes, grammar.augmentedStart = .nonterminal (primed grammar.start.atom (primes + 1)) ∧
      grammar.augmentedStart ∉ grammar.nonterminals ∧
      ∀ fewer < primes,
        .nonterminal (primed grammar.start.atom (fewer + 1)) ∈ grammar.nonterminals := by
  obtain ⟨primes, hfresh, _, hfewer⟩ := exists_freshName_eq
    (grammar.nonterminals.toList.map Symbol.atom) (grammar.start.atom.push '\'')
  refine ⟨primes, congrArg Symbol.nonterminal hfresh,
    grammar.augmentedStart_not_mem_nonterminals, fun fewer hlt => ?_⟩
  obtain ⟨symbol, hsymbol, hatom⟩ := List.mem_map.mp (hfewer fewer hlt)
  obtain ⟨production, hmem, rfl⟩ := mem_nonterminals.mp hsymbol
  -- a left-hand side is the nonterminal with its name
  obtain ⟨name, hname⟩ := Symbol.exists_eq_nonterminal (lhs_isNonterminal hmem)
  rw [hname] at hatom hsymbol
  exact hatom ▸ hsymbol

private theorem lhs_ne_augmentedStart {production : Production} (h : production ∈ grammar.productions) :
    production.lhs ≠ grammar.augmentedStart := by
  intro hlhs
  exact grammar.augmentedStart_not_mem_nonterminals (mem_nonterminals.mpr ⟨production, h, hlhs⟩)

private theorem augmentedStart_not_mem_rhs {production : Production} (h : production ∈ grammar.productions) :
    grammar.augmentedStart ∉ production.rhs := by
  intro hrhs
  obtain ⟨definition, hdefinition, hlhs⟩ :=
    grammar.wellFormed.nonterminals_defined production h _ hrhs rfl
  exact lhs_ne_augmentedStart hdefinition hlhs

theorem augmented_derives_start_iff {word : List Symbol} (hword : IsWord word) :
    grammar.augmented.Derives [grammar.augmented.start] word ↔
      grammar.Derives [grammar.start] word := by
  constructor
  · intro h
    rcases derives_of_augmented_derives h with rfl | ⟨_, hderives⟩
    · have hkind : grammar.augmentedStart.isTerminal = true := hword _ List.mem_cons_self
      cases hkind
    · exact hderives
  · intro h
    exact grammar.augmented_derives_start.trans h.augmented

/-! ## What is entered is what would be built -/

private theorem nonterminals_augmented (grammar : Grammar) :
    grammar.augmented.nonterminals = grammar.nonterminals.insert grammar.augmentedStart := by
  apply SortedSet.ext_mem
  intro symbol
  rw [mem_nonterminals_augmented, SortedSet.mem_insert, or_comm]

theorem rulesFor_augmented (grammar : Grammar) (symbol : Symbol) :
    grammar.augmented.rulesFor symbol = grammar.rulesFor symbol ++
      if symbol = grammar.augmentedStart then [grammar.startRule] else [] := by
  have hnumbered : grammar.augmented.productions.zipIdx =
      grammar.productions.zipIdx ++ [(grammar.startProduction, grammar.startRule)] := by
    show (grammar.productions ++ [grammar.startProduction]).zipIdx = _
    simp [List.zipIdx_append, startRule]
  calc grammar.augmented.rulesFor symbol
      = Index.rulesIn grammar.augmented.productions.zipIdx symbol := rfl
    _ = Index.rulesIn grammar.productions.zipIdx symbol ++
          if symbol = grammar.augmentedStart then [grammar.startRule] else [] := by
        rw [hnumbered, Index.rulesIn_snoc]
        rfl

/-- Before, the new start symbol has no rules that could be lost. -/
private theorem rules_augmented (grammar : Grammar) : grammar.augmented.index.rules =
    grammar.index.rules.insert grammar.augmentedStart [grammar.startRule] := by
  apply SortedMap.ext_get?
  intro symbol
  rw [index, index, SortedMap.get?_insert, SortedMap.get?_ofKeys, SortedMap.get?_ofKeys,
    rulesFor_augmented]
  by_cases hstart : symbol = grammar.augmentedStart
  · have hnone := rulesFor_eq_nil grammar.augmentedStart_not_mem_nonterminals
    simp [hstart, hnone, mem_nonterminals_augmented]
  · simp [hstart, mem_nonterminals_augmented]

theorem index_augmented (grammar : Grammar) : grammar.augmented.index =
    grammar.index.enterStart grammar.augmentedStart grammar.startRule := by
  calc grammar.augmented.index
      = ⟨grammar.augmented.nonterminals, grammar.augmented.terminals,
          grammar.augmented.index.rules⟩ := rfl
    _ = grammar.index.enterStart grammar.augmentedStart grammar.startRule := by
        rw [nonterminals_augmented, terminals_augmented, rules_augmented]
        rfl

namespace Indexed

/-- To augment a grammar with its index is to augment the grammar. -/
theorem augmented_indexed (grammar : Grammar) :
    grammar.indexed.augmented = (grammar.augmented.indexed, grammar.startRule) := by
  have hrule : grammar.augmented.productions.length - 1 = grammar.startRule := by
    show (grammar.productions ++ [grammar.startProduction]).length - 1 = _
    rw [List.length_append, List.length_singleton, Nat.add_sub_cancel, startRule]
  calc grammar.indexed.augmented
      = (⟨grammar.augmentedStart, grammar.augmented.productions,
          grammar.index.enterStart grammar.augmentedStart
            (grammar.augmented.productions.length - 1)⟩,
          grammar.augmented.productions.length - 1) := rfl
    _ = (grammar.augmented.indexed, grammar.startRule) := by
        rw [hrule, ← index_augmented]
        rfl

/-- What is built is a grammar with its index. -/
theorem build_eq_ok_iff {start : Symbol} {productions : List Production} {kept : Indexed} :
    build start productions = .ok kept ↔
      ∃ grammar, check start productions = .ok grammar ∧ grammar.indexed = kept := by
  unfold build
  rw [← map_index_check]
  cases hcheck : check start productions with
  | error error => simp [Except.map]
  | ok grammar =>
      obtain ⟨rfl, rfl⟩ := check_eq_ok_iff.mp hcheck
      simp [Except.map, indexed]

/-- However often it has been augmented, what is kept is a grammar with its index. -/
theorem Made.exists_indexed {kept : Indexed} (h : kept.Made) :
    ∃ grammar : Grammar, grammar.indexed = kept := by
  induction h with
  | build h =>
      obtain ⟨grammar, _, hkept⟩ := build_eq_ok_iff.mp h
      exact ⟨grammar, hkept⟩
  | augmented _ ih =>
      obtain ⟨grammar, rfl⟩ := ih
      exact ⟨grammar.augmented, by rw [augmented_indexed]⟩

/-- What is made and augmented has a start symbol with a new name, keeps its rules and its words, and
is what would have been built from the productions that it has then. -/
theorem augmented_exact {kept next : Indexed} {rule : Nat} (h : kept.Made)
    (hnext : kept.augmented = (next, rule)) :
    ∃ grammar : Grammar, kept = grammar.indexed ∧ next = grammar.augmented.indexed ∧
      (∃ primes, next.start = .nonterminal (primed kept.start.atom (primes + 1)) ∧
        next.start ∉ kept.index.nonterminals ∧
        ∀ fewer < primes,
          .nonterminal (primed kept.start.atom (fewer + 1)) ∈ kept.index.nonterminals) ∧
      (∀ production ∈ kept.productions,
        production.lhs ≠ next.start ∧ next.start ∉ production.rhs) ∧
      rule = kept.productions.length ∧
      (∀ number < kept.productions.length,
        next.productions[number]? = kept.productions[number]?) ∧
      build next.start (kept.productions ++ [⟨next.start, [kept.start]⟩]) = .ok next ∧
      check next.start (kept.productions ++ [⟨next.start, [kept.start]⟩]) =
        .ok grammar.augmented ∧
      ∀ word, IsWord word → (grammar.augmented.Derives [grammar.augmented.start] word ↔
        grammar.Derives [grammar.start] word) := by
  obtain ⟨grammar, rfl⟩ := h.exists_indexed
  have hcheck : check grammar.augmentedStart
      (grammar.productions ++ [grammar.startProduction]) = .ok grammar.augmented :=
    check_eq_ok_iff.mpr ⟨rfl, rfl⟩
  have hbuild : build grammar.augmentedStart (grammar.productions ++ [grammar.startProduction]) =
      .ok grammar.augmented.indexed :=
    build_eq_ok_iff.mpr ⟨grammar.augmented, hcheck, rfl⟩
  rw [augmented_indexed] at hnext
  obtain ⟨rfl, rfl⟩ := Prod.mk.inj hnext
  refine ⟨grammar, rfl, rfl, grammar.exists_augmentedStart_eq, fun production hmem => ?_, rfl,
    fun number hlt => ?_, hbuild, hcheck, fun word hword => augmented_derives_start_iff hword⟩
  · exact ⟨grammar.lhs_ne_augmentedStart hmem, grammar.augmentedStart_not_mem_rhs hmem⟩
  · exact List.getElem?_append_left hlt

/-- The first new name for the start symbol of these productions is taken already. -/
def primedAlready : List Production := [
  ⟨.nonterminal "S", [.nonterminal "S'"]⟩,
  ⟨.nonterminal "S'", [.nonterminal "S", .terminal "a"]⟩,
  ⟨.nonterminal "S", [.epsilon]⟩]

/-- Augmenting `primedAlready` takes two primes, and augmenting it again takes one more.  What is kept then
is what is built from the five productions. -/
theorem augmented_exact_primedAlready : ∃ kept, build defaultStart primedAlready = .ok kept ∧
    kept.augmented.1.Made ∧ kept.augmented.1.start = .nonterminal "S''" ∧
    kept.augmented.1.augmented.1.start = .nonterminal "S'''" ∧
    kept.augmented.1.augmented.2 = 4 ∧
    build (.nonterminal "S'''")
      (kept.augmented.1.productions ++ [⟨.nonterminal "S'''", [.nonterminal "S''"]⟩]) =
        .ok kept.augmented.1.augmented.1 := by
  obtain ⟨kept, hkept, hnames⟩ := exists_ok_of_toOption_map
    (show (build defaultStart primedAlready).toOption.map (fun kept => (kept.augmented.1.start,
      kept.augmented.1.augmented.1.start, kept.augmented.1.productions.length)) =
        some (.nonterminal "S''", .nonterminal "S'''", 4) by decide +kernel)
  obtain ⟨hfirst, hnames⟩ := Prod.mk.inj hnames
  obtain ⟨hsecond, hlength⟩ := Prod.mk.inj hnames
  have hmade : kept.augmented.1.Made := (Made.build hkept).augmented
  have hnext : kept.augmented.1.augmented =
      (kept.augmented.1.augmented.1, kept.augmented.1.augmented.2) := rfl
  obtain ⟨_, _, _, _, _, hrule, _, hbuild, _⟩ := augmented_exact hmade hnext
  rw [hsecond, hfirst] at hbuild
  exact ⟨kept, hkept, hmade, hfirst, hsecond, hrule.trans hlength, hbuild⟩

end Indexed

end TableParsing.Grammar
