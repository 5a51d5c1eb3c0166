import TableParsing.Proofs.Predictive.Halting
import TableParsing.Proofs.Sentence

/-!
# The predictive parser decides the language

With the FIRST and FOLLOW sets of the grammar itself, a predictive parser that
could be made ends on every list of atoms and accepts exactly the sentences of
the grammar (`decides`).  Nothing is asked of the grammar but that it is one:
nonterminals may be unreachable, derive no word, or derive the empty string in
any number of ways.

Soundness and the end of every run hold for any sets.  That every sentence is
accepted rests on the sets: the plain driver walks along a parse tree of the
sentence, hence it ends, and where it ends the guard never interferes.
-/

namespace TableParsing.Predictive.Parser

open Machine

variable {grammar : Grammar} {first : FirstSets} {follow : FollowSets} {parser : Parser}

/-- The guarded driver ends on a list of atoms with a verdict. -/
def Answers (parser : Parser) : List String → Bool → Prop :=
  Machine.Answers parser.guardedStep fun word => ⟨parser.start word, []⟩

theorem answers_accepts (h : ofSets grammar first follow = .ok parser) (atoms : List String) :
    parser.Answers atoms (parser.accepts atoms) := by
  unfold Answers Machine.Answers accepts
  cases hatoms : Word.ofAtoms? atoms with
  | some word => exact halts_acceptsWord h (Word.isWord_of_ofAtoms? hatoms)
  | none => rfl

theorem acceptsWord_iff_halts (h : ofSets grammar first follow = .ok parser) {word : List Symbol}
    (hword : IsWord word) :
    parser.acceptsWord word = true ↔ Halts parser.step (parser.start word) true := by
  have hstart := watched_start parser hword
  -- the guard interferes only where the plain driver would go on for ever
  rcases hstart.halts_or_refused h (halts_acceptsWord h hword) with
    hplain | ⟨hfalse, steps, final, hrun, hrefused⟩
  · constructor
    · intro haccepted
      exact haccepted ▸ hplain
    · exact hplain.unique
  · constructor
    · intro haccepted
      rw [haccepted] at hfalse
      cases hfalse
    · intro haccepted
      exact absurd haccepted (hstart.not_halts_of_later_refused h hrun hrefused true)

theorem derives_of_acceptsWord (h : ofSets grammar first follow = .ok parser) {word : List Symbol}
    (hword : IsWord word) (haccepted : parser.acceptsWord word = true) :
    grammar.Derives [grammar.start] word := by
  have hplain := (acceptsWord_iff_halts h hword).mp haccepted
  rw [start, (exists_table_of_ofSets h).1] at hplain
  exact derives_of_halts_true h (proper_start grammar) hword hplain

theorem acceptsWord_of_derives (h : ofSets grammar first follow = .ok parser)
    (hfirst : first.Closed grammar) (hfollow : FollowSets.Closed grammar first follow)
    {word : List Symbol} (hword : IsWord word) (hderives : grammar.Derives [grammar.start] word) :
    parser.acceptsWord word = true := by
  obtain ⟨trees, htrees⟩ := hderives.exists_parses hword
  rw [acceptsWord_iff_halts h hword, start, (exists_table_of_ofSets h).1]
  exact halts_true_of_parses h hfirst hfollow htrees hfollow.covers_start

theorem isSentence_of_accepts (h : ofSets grammar first follow = .ok parser) {atoms : List String}
    (haccepts : parser.accepts atoms = true) : grammar.IsSentence atoms := by
  unfold accepts at haccepts
  split at haccepts
  · rename_i word hatoms
    rw [Grammar.isSentence_iff_of_ofAtoms? hatoms]
    exact derives_of_acceptsWord h (Word.isWord_of_ofAtoms? hatoms) haccepts
  · cases haccepts

theorem accepts_of_isSentence (h : ofSets grammar first follow = .ok parser)
    (hfirst : first.Closed grammar) (hfollow : FollowSets.Closed grammar first follow)
    {atoms : List String} (hsentence : grammar.IsSentence atoms) :
    parser.accepts atoms = true := by
  obtain ⟨word, hatoms⟩ := hsentence.exists_word
  rw [Grammar.isSentence_iff_of_ofAtoms? hatoms] at hsentence
  simp only [accepts, hatoms]
  exact acceptsWord_of_derives h hfirst hfollow (Word.isWord_of_ofAtoms? hatoms) hsentence

theorem accepts_iff
    (h : ofSets grammar (FirstSets.ofGrammar grammar)
      (FollowSets.ofGrammar grammar (FirstSets.ofGrammar grammar)) = .ok parser)
    {atoms : List String} : parser.accepts atoms = true ↔ grammar.IsSentence atoms :=
  ⟨isSentence_of_accepts h, accepts_of_isSentence h (FirstSets.ofGrammar_closed grammar)
    (FollowSets.ofGrammar_closed grammar (FirstSets.ofGrammar grammar))⟩

/-- With the sets of the grammar itself, the parser answers every input, and it accepts exactly the
sentences. -/
theorem decides
    (h : ofSets grammar (FirstSets.ofGrammar grammar)
      (FollowSets.ofGrammar grammar (FirstSets.ofGrammar grammar)) = .ok parser)
    (atoms : List String) :
    parser.Answers atoms (parser.accepts atoms) ∧
      (parser.accepts atoms = true ↔ grammar.IsSentence atoms) :=
  ⟨answers_accepts h atoms, accepts_iff h⟩

/-- Lists with an optional part in parentheses.  `U` can be neither reached nor derived to a word,
and both alternatives of `B` begin with what can vanish. -/
def optionalLists : Grammar where
  start := .nonterminal "S"
  productions := [
    ⟨.nonterminal "S", [.nonterminal "A", .nonterminal "B"]⟩,
    ⟨.nonterminal "A", [.terminal "id", .nonterminal "A"]⟩,
    ⟨.nonterminal "A", [.epsilon]⟩,
    ⟨.nonterminal "B", [.nonterminal "C", .terminal "(", .nonterminal "S", .terminal ")"]⟩,
    ⟨.nonterminal "B", [.nonterminal "C", .nonterminal "C"]⟩,
    ⟨.nonterminal "C", [.epsilon]⟩,
    ⟨.nonterminal "U", [.nonterminal "U", .terminal "id"]⟩]
  wellFormed := Grammar.wellFormed_of_fault?_eq_none (by decide)

/-- For `optionalLists` there is a parser: `id ( id )` is a sentence, and `id (` is none. -/
theorem decides_optionalLists :
    ∃ parser, ofSets optionalLists (FirstSets.ofGrammar optionalLists)
        (FollowSets.ofGrammar optionalLists (FirstSets.ofGrammar optionalLists)) = .ok parser ∧
      optionalLists.IsSentence ["id", "(", "id", ")"] ∧ ¬ optionalLists.IsSentence ["id", "("] := by
  have hruns : ((ofSets optionalLists (FirstSets.ofGrammar optionalLists)
      (FollowSets.ofGrammar optionalLists (FirstSets.ofGrammar optionalLists))).toOption.map
        fun parser => (parser.accepts ["id", "(", "id", ")"], parser.accepts ["id", "("])) =
      some (true, false) := by decide +kernel
  obtain ⟨parser, h, hanswers⟩ := exists_ok_of_toOption_map hruns
  obtain ⟨haccepted, hrefused⟩ := Prod.mk.inj hanswers
  refine ⟨parser, h, (decides h _).2.mp haccepted, fun hsentence => ?_⟩
  rw [(decides h _).2.mpr hsentence] at hrefused
  cases hrefused

end TableParsing.Predictive.Parser
