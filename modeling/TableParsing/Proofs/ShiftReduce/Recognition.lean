import TableParsing.Proofs.Sentence
import TableParsing.Proofs.ShiftReduce.Planting
import TableParsing.Proofs.SmallTrees

/-!
# The shift-reduce parser accepts the sentences

With the FIRST and FOLLOW sets of the grammar itself, the driver of a parser that
could be made comes to accept a list of atoms if and only if it is a sentence
(`accepts_exactly`).  On other lists it rejects, or it goes on for ever if the
grammar has nonterminals that derive no word.

A run that accepts has a step for every leaf and node of the parse tree.  There
is but one tree, and it is small, so that the run ends within
`Parser.stepBound` (`treeBound_lt_stepBound`): cutting off longer runs does not
change what is accepted.
-/

namespace TableParsing.ShiftReduce.Parser

open Machine

variable {grammar : Grammar} {first : FirstSets} {follow : FollowSets} {parser : Parser}

/-- The driver ends on a list of atoms with a verdict. -/
def Answers (parser : Parser) : List String → Bool → Prop := Machine.Answers parser.step start

/-! ## The bound on accepting runs -/

private theorem size_nonterminals_le_augmented (grammar : Grammar) :
    grammar.nonterminals.size ≤ grammar.augmented.nonterminals.size := by
  apply SortedSet.size_le_of_subset
  intro symbol hsymbol
  exact Grammar.mem_nonterminals_augmented.mpr (.inl hsymbol)

private theorem longestBody_le_augmented (grammar : Grammar) :
    grammar.longestBody ≤ grammar.augmented.longestBody := by
  have hlast : grammar.augmented.longestBody =
      max grammar.longestBody grammar.startProduction.body.length := by
    simp [Grammar.longestBody, Grammar.augmented]
  rw [hlast]
  exact Nat.le_max_left ..

/-- A run over a small tree is not cut off. -/
private theorem treeBound_lt_stepBound (h : ofFollow grammar follow = .ok parser) (word : List Symbol) :
    grammar.treeBound word < parser.stepBound word := by
  have hnonterminals := size_nonterminals_le_augmented grammar
  have hlongest := longestBody_le_augmented grammar
  have hnode : grammar.nodeBound ≤ (grammar.augmented.longestBody + 2) ^
      (grammar.augmented.nonterminals.size + parser.automaton.states.length + 1) := by
    have hpos := grammar.emptyBound_pos
    calc grammar.nodeBound
        ≤ grammar.longestBody * grammar.emptyBound + grammar.emptyBound :=
          Nat.add_le_add_left hpos _
      _ = (grammar.longestBody + 1) ^ (grammar.nonterminals.size + 1) := by
          rw [Grammar.emptyBound]
          ring
      _ ≤ (grammar.augmented.longestBody + 2) ^ (grammar.nonterminals.size + 1) :=
          Nat.pow_le_pow_left (by omega) _
      _ ≤ _ := Nat.pow_le_pow_right (by omega) (by omega)
  have hchain := Nat.mul_le_mul (Nat.succ_le_succ hnonterminals) hnode
  have hpower : 0 < (grammar.augmented.longestBody + 2) ^
      (grammar.augmented.nonterminals.size + parser.automaton.states.length + 1) :=
    Nat.pow_pos (by omega)
  have hpos := Nat.mul_pos (Nat.succ_pos grammar.augmented.nonterminals.size) hpower
  have hgrammar : parser.automaton.grammar = grammar.augmented := by
    rw [automaton_eq h]
    rfl
  simp only [stepBound, hgrammar, Nat.pow_eq, Grammar.treeBound, Grammar.chainBound]
  rw [Nat.mul_assoc (2 * word.length + 2)]
  exact Nat.mul_lt_mul_of_lt_of_le (Nat.lt_succ_self _) hchain hpos

/-! ## Words -/

theorem derives_of_halts_start (h : ofFollow grammar follow = .ok parser) {word : List Symbol}
    (hword : IsWord word) (hhalts : Halts parser.step (start word) true) :
    grammar.Derives [grammar.start] word :=
  derives_of_halts_true h linked_nil hword hhalts

theorem acceptsWord_of_derives (h : ofFollow grammar follow = .ok parser)
    (hfirst : first.Closed grammar) (hfollow : FollowSets.Closed grammar first follow)
    {word : List Symbol} (hword : IsWord word) (hderives : grammar.Derives [grammar.start] word) :
    parser.acceptsWord word = true := by
  obtain ⟨tree, htree, hsize⟩ := hderives.exists_small_tree hword
  -- the run has a step for each leaf and node, and one to accept
  have hrun := verdictWithin_of_parses h hfirst hfollow htree
  have hbound := hsize.trans_lt (treeBound_lt_stepBound h word)
  rw [acceptsWord, verdictWithin_of_le hrun hbound]
  rfl

theorem halts_of_acceptsWord {word : List Symbol} (h : parser.acceptsWord word = true) :
    Halts parser.step (start word) true := by
  rw [acceptsWord, Option.getD_eq_iff] at h
  rcases h with h | ⟨_, hfalse⟩
  · exact ⟨_, h⟩
  · cases hfalse

/-! ## Lists of atoms -/

theorem isSentence_of_answers (h : ofFollow grammar follow = .ok parser) {atoms : List String}
    (hanswers : parser.Answers atoms true) : grammar.IsSentence atoms := by
  unfold Answers Machine.Answers at hanswers
  split at hanswers
  · rename_i word hatoms
    rw [Grammar.isSentence_iff_of_ofAtoms? hatoms]
    exact derives_of_halts_start h (Word.isWord_of_ofAtoms? hatoms) hanswers
  · cases hanswers

theorem answers_of_accepts {atoms : List String} (haccepts : parser.accepts atoms = true) :
    parser.Answers atoms true := by
  unfold accepts at haccepts
  unfold Answers Machine.Answers
  cases hatoms : Word.ofAtoms? atoms with
  | some word =>
      rw [hatoms] at haccepts
      exact halts_of_acceptsWord haccepts
  | none =>
      rw [hatoms] at haccepts
      cases haccepts

theorem accepts_of_isSentence (h : ofFollow grammar follow = .ok parser)
    (hfirst : first.Closed grammar) (hfollow : FollowSets.Closed grammar first follow)
    {atoms : List String} (hsentence : grammar.IsSentence atoms) :
    parser.accepts atoms = true := by
  obtain ⟨word, hatoms⟩ := hsentence.exists_word
  rw [Grammar.isSentence_iff_of_ofAtoms? hatoms] at hsentence
  simp only [accepts, hatoms]
  exact acceptsWord_of_derives h hfirst hfollow (Word.isWord_of_ofAtoms? hatoms) hsentence

theorem accepts_iff
    (h : ofFollow grammar (FollowSets.ofGrammar grammar (FirstSets.ofGrammar grammar)) =
      .ok parser) {atoms : List String} :
    parser.accepts atoms = true ↔ grammar.IsSentence atoms :=
  ⟨fun haccepts => isSentence_of_answers h (answers_of_accepts haccepts),
    accepts_of_isSentence h (FirstSets.ofGrammar_closed grammar)
      (FollowSets.ofGrammar_closed grammar (FirstSets.ofGrammar grammar))⟩

/-- With the sets of the grammar itself, the driver comes to accept exactly the sentences, and within
the bound on its steps. -/
theorem accepts_exactly
    (h : ofFollow grammar (FollowSets.ofGrammar grammar (FirstSets.ofGrammar grammar)) =
      .ok parser) (atoms : List String) :
    (parser.Answers atoms true ↔ grammar.IsSentence atoms) ∧
      (parser.accepts atoms = true ↔ grammar.IsSentence atoms) := by
  have hsound : parser.Answers atoms true → grammar.IsSentence atoms := isSentence_of_answers h
  have hcomplete : grammar.IsSentence atoms → parser.Answers atoms true := fun hsentence =>
    answers_of_accepts ((accepts_iff h).mpr hsentence)
  exact ⟨⟨hsound, hcomplete⟩, accepts_iff h⟩

/-- Sums in which any term can be missing.  `U` can be neither reached nor derived to a word. -/
def gappySums : Grammar where
  start := .nonterminal "S"
  productions := [
    ⟨.nonterminal "S", [.nonterminal "S", .terminal "+", .nonterminal "T"]⟩,
    ⟨.nonterminal "S", [.nonterminal "T"]⟩,
    ⟨.nonterminal "T", [.terminal "(", .nonterminal "S", .terminal ")"]⟩,
    ⟨.nonterminal "T", [.terminal "id"]⟩,
    ⟨.nonterminal "T", [.epsilon]⟩,
    ⟨.nonterminal "U", [.nonterminal "U", .terminal "id"]⟩]
  wellFormed := Grammar.wellFormed_of_fault?_eq_none (by decide)

/-- For `gappySums` there is a parser: `id + ( )` is a sentence, and `id (` is none. -/
theorem accepts_exactly_gappySums :
    ∃ parser, ofFollow gappySums (FollowSets.ofGrammar gappySums (FirstSets.ofGrammar gappySums)) =
        .ok parser ∧
      gappySums.IsSentence ["id", "+", "(", ")"] ∧ ¬ gappySums.IsSentence ["id", "("] := by
  have hruns : ((ofFollow gappySums
      (FollowSets.ofGrammar gappySums (FirstSets.ofGrammar gappySums))).toOption.map
        fun parser => (parser.accepts ["id", "+", "(", ")"], parser.accepts ["id", "("])) =
      some (true, false) := by decide +kernel
  obtain ⟨parser, h, hanswers⟩ := exists_ok_of_toOption_map hruns
  obtain ⟨haccepted, hrefused⟩ := Prod.mk.inj hanswers
  refine ⟨parser, h, (accepts_exactly h _).2.mp haccepted, fun hsentence => ?_⟩
  rw [(accepts_exactly h _).2.mpr hsentence] at hrefused
  cases hrefused

end TableParsing.ShiftReduce.Parser
