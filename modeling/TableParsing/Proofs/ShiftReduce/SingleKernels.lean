import TableParsing.Analysis
import TableParsing.Proofs.Predictive.Progress
import TableParsing.Proofs.ShiftReduce.Actions

/-!
# Predictive grammars without empty alternatives are SLR(1)

If a productive grammar without empty alternatives has a predictive table for its
own sets, the states of its automaton are very small: each is the closure of a
single item (`exists_kernel`), and the symbol behind the dot tells its items apart
(`eq_of_next?_eq`).  A completed item is then alone in its state, and no two actions
can be demanded there, whatever the FOLLOW sets (`exists_ofFollow`).

The items of a closure are predicted from its first item by way of others.  A
symbol behind the dot derives a word that begins with some terminal, since no
alternative is empty, and before that terminal the table predicts the very
production of each item on the way (`reflTransGen_predicts_of_mem_closure`).  Two
items with one symbol behind the dot therefore lie on one way.  If they were
different the symbol would unfold to itself, but with the sets of the grammar the
predictive driver makes progress.
-/

namespace TableParsing

namespace Grammar

variable {grammar : Grammar}

/-- No alternative is empty. -/
def EpsilonFree (grammar : Grammar) : Prop :=
  ∀ production ∈ grammar.productions, production.isEpsilon = false

instance : Decidable grammar.EpsilonFree :=
  inferInstanceAs (Decidable (∀ production ∈ grammar.productions, _))

theorem EpsilonFree.body_ne_nil (h : grammar.EpsilonFree) {production : Production}
    (hproduction : production ∈ grammar.productions) : production.body ≠ [] := by
  rw [Production.body, h production hproduction]
  exact (grammar.wellFormed.valid production hproduction).rhs_ne_nil

/-- Without empty alternatives nothing vanishes. -/
theorem EpsilonFree.ne_nil_of_derives (h : grammar.EpsilonFree) {first second : List Symbol}
    (hderives : grammar.Derives first second) (hfirst : first ≠ []) : second ≠ [] := by
  refine hderives.preserves (motive := fun form => form ≠ []) hfirst ?_
  rintro _ _ @⟨production, hproduction, before, after⟩ _ hnil
  exact h.body_ne_nil hproduction (by simp_all)

theorem EpsilonFree.exists_begins (h : grammar.EpsilonFree) (hproductive : grammar.Productive)
    {symbol : Symbol} (hsymbol : symbol.isTerminal = true ∨ symbol ∈ grammar.nonterminals) :
    ∃ atom, grammar.Begins [symbol] (.terminal atom) := by
  have hform : ∀ other ∈ [symbol], other.isTerminal = true ∨ other ∈ grammar.nonterminals := by
    simpa using hsymbol
  obtain ⟨word, hword, hderives⟩ := hproductive.exists_word hform
  cases word with
  | nil => exact absurd rfl (h.ne_nil_of_derives hderives (List.cons_ne_nil _ _))
  | cons front rest =>
      have hfront := (isWord_cons.mp hword).1
      cases front with
      | terminal atom => exact ⟨atom, .terminal hderives⟩
      | epsilon | nonterminal | endMarker => cases hfront

end Grammar

namespace ShiftReduce

variable {grammar : Grammar} {first : FirstSets} {follow : FollowSets}
  {parser : Predictive.Parser} {lookahead : Symbol}

/-! ## Predictions from item to item -/

/-- Before a lookahead, the table predicts a production for the nonterminal behind the dot of an
item. -/
inductive Predicts (grammar : Grammar) (parser : Predictive.Parser) (lookahead : Symbol) :
    Item → Item → Prop
  | predict {item : Item} {symbol : Symbol} {rule : Nat}
      (hnext : item.next? grammar.augmented = some symbol)
      (hrule : parser.table.rule? symbol lookahead = some rule) :
      Predicts grammar parser lookahead item (.initial rule)

theorem Predicts.rightUnique : Relator.RightUnique (Predicts grammar parser lookahead) := by
  rintro item _ _ ⟨hnext, hrule⟩ ⟨hnext', hrule'⟩
  cases hnext.symm.trans hnext'
  rw [Option.some.inj (hrule.symm.trans hrule')]

theorem Predicts.exists_next? {item item' : Item}
    (h : Predicts grammar parser lookahead item item') :
    ∃ symbol, item.next? grammar.augmented = some symbol := by
  obtain ⟨hnext, _⟩ := h
  exact ⟨_, hnext⟩

/-- The body of the predicted item comes to stand in the place of the symbol. -/
theorem Predicts.unfolds (h : Predictive.Parser.ofSets grammar first follow = .ok parser)
    {item item' : Item} (hpredicts : Predicts grammar parser lookahead item item')
    {symbol symbol' : Symbol} (hnext : item.next? grammar.augmented = some symbol)
    (hnext' : item'.next? grammar.augmented = some symbol') (front : List Symbol) :
    ∃ front', parser.Unfolds lookahead (symbol :: front) (symbol' :: front') := by
  obtain ⟨hown, hrule⟩ := hpredicts
  obtain rfl := Option.some.inj (hown.symm.trans hnext)
  obtain ⟨production, hproduction, hlhs, _⟩ := (Predictive.Parser.rule?_eq_some_iff h).mp hrule
  have hkind := Grammar.lhs_isNonterminal (Grammar.mem_of_production? hproduction)
  rw [hlhs] at hkind
  have hpredict := Predictive.Parser.predict?_of_rule? h hproduction hrule
  have hbody := Item.behind_of_next? hnext'
  rw [Item.behind_initial, Grammar.augmented_body_of_production? hproduction] at hbody
  have hunfolds := Predictive.Parser.Unfolds.expand hkind hpredict front
  rw [hbody] at hunfolds
  exact ⟨_, hunfolds⟩

private theorem transGen_unfolds_of_predicts
    (h : Predictive.Parser.ofSets grammar first follow = .ok parser) {item item' : Item}
    (hpredicts : Relation.TransGen (Predicts grammar parser lookahead) item item')
    {symbol symbol' : Symbol} (hnext : item.next? grammar.augmented = some symbol)
    (hnext' : item'.next? grammar.augmented = some symbol') :
    ∃ front, Relation.TransGen (parser.Unfolds lookahead) [symbol] (symbol' :: front) := by
  induction hpredicts generalizing symbol' with
  | single hlast =>
      obtain ⟨front, hunfolds⟩ := hlast.unfolds h hnext hnext' []
      exact ⟨front, .single hunfolds⟩
  | tail _ hlast ih =>
      obtain ⟨middle, hmiddle⟩ := hlast.exists_next?
      obtain ⟨front, hunfolds⟩ := ih hmiddle
      obtain ⟨front', hlast⟩ := hlast.unfolds h hmiddle hnext' front
      exact ⟨front', hunfolds.tail hlast⟩

/-! ## The items of a closure -/

/-- Before a terminal with which the symbol behind its dot can begin, an item of the closure of one
item is predicted from that item. -/
theorem reflTransGen_predicts_of_mem_closure
    (h : Predictive.Parser.ofSets grammar first follow = .ok parser)
    (hfirst : first.Closed grammar) {kernel : Item} (hne : lookahead ≠ .epsilon) :
    ∀ item ∈ ItemSet.closure grammar.augmented [kernel], ∀ symbol,
      item.next? grammar.augmented = some symbol → lookahead ∈ first.ofString [symbol] →
        Relation.ReflTransGen (Predicts grammar parser lookahead) kernel item := by
  apply ItemSet.closure_induct (motive := fun item => ∀ symbol,
    item.next? grammar.augmented = some symbol → lookahead ∈ first.ofString [symbol] →
      Relation.ReflTransGen (Predicts grammar parser lookahead) kernel item)
  · intro item hitem symbol _ _
    rw [List.mem_singleton.mp hitem]
  · intro item symbol rule ih hnext hrule symbol' hnext' hmem
    obtain ⟨production, hproduction, rfl⟩ :=
      Automaton.exists_production_of_predicted hnext hrule
    have hbehind := Item.behind_of_next? hnext'
    rw [Item.behind_initial, Grammar.augmented_body_of_production? hproduction] at hbehind
    -- what begins the first symbol of the body begins the body, hence its left-hand side
    have hbody : lookahead ∈ first.ofString production.body := by
      rw [hbehind, ← List.singleton_append, FirstSets.mem_ofString_append]
      exact .inl ⟨hmem, hne⟩
    have hstep := Grammar.Produces.replace (Grammar.mem_of_production? hproduction) [] []
    have hlhs : lookahead ∈ first.ofString [production.lhs] :=
      hfirst.mem_ofString_of_produces hstep (by simpa using hbody)
    have hclaimed : parser.table.rule? production.lhs lookahead = some rule := by
      refine (Predictive.Parser.rule?_eq_some_iff h).mpr ⟨production, hproduction, rfl, ?_⟩
      rw [Predictive.Table.mem_lookaheads, ← FirstSets.ofString_body]
      exact .inl ⟨hbody, hne⟩
    exact (ih production.lhs hnext hlhs).tail (.predict hnext hclaimed)

section OwnSets

variable (h : Predictive.Parser.ofSets grammar (FirstSets.ofGrammar grammar)
    (FollowSets.ofGrammar grammar (FirstSets.ofGrammar grammar)) = .ok parser)
  (hproductive : grammar.Productive) (hfree : grammar.EpsilonFree)

include h hproductive hfree

/-- In the closure of one item, the symbol behind the dot tells the items apart. -/
private theorem eq_of_next?_eq {kernel item item' : Item} {symbol : Symbol}
    (hitem : item ∈ ItemSet.closure grammar.augmented [kernel])
    (hitem' : item' ∈ ItemSet.closure grammar.augmented [kernel])
    (hnext : item.next? grammar.augmented = some symbol)
    (hnext' : item'.next? grammar.augmented = some symbol) : item = item' := by
  have hfirst := FirstSets.ofGrammar_closed grammar
  have hkind := Grammar.terminal_or_mem_nonterminals_of_mem_augmented_body
    (Item.mem_body_of_next? hnext)
  obtain ⟨atom, hbegins⟩ := hfree.exists_begins hproductive hkind
  have hmem := hfirst.mem_ofString_of_begins hbegins
  have hne : Symbol.terminal atom ≠ .epsilon := nofun
  have hway := reflTransGen_predicts_of_mem_closure h hfirst hne item hitem symbol hnext hmem
  have hway' := reflTransGen_predicts_of_mem_closure h hfirst hne item' hitem' symbol hnext' hmem
  -- items on one way with the same symbol would make it unfold to itself
  have hapart : ∀ {earlier later : Item}, earlier.next? grammar.augmented = some symbol →
      later.next? grammar.augmented = some symbol →
      Relation.ReflTransGen (Predicts grammar parser (.terminal atom)) earlier later →
        earlier = later := by
    intro earlier later hearlier hlater hbetween
    rcases Relation.reflTransGen_iff_eq_or_transGen.mp hbetween with hsame | hlonger
    · exact hsame.symm
    · obtain ⟨front, hround⟩ := transGen_unfolds_of_predicts h hlonger hearlier hlater
      exact absurd hround (Predictive.Parser.not_recurring h (.inl rfl) symbol front)
  rcases Relation.ReflTransGen.total_of_right_unique Predicts.rightUnique hway hway' with
    hbetween | hbetween
  · exact hapart hnext hnext' hbetween
  · exact (hapart hnext' hnext hbetween).symm

theorem exists_kernel : ∀ state ∈ (Automaton.ofGrammar grammar).states,
    ∃ kernel, state = ItemSet.closure grammar.augmented [kernel] := by
  apply Automaton.states_induct
    (motive := fun state => ∃ kernel, state = ItemSet.closure grammar.augmented [kernel])
  · exact ⟨_, rfl⟩
  · rintro _ symbol ⟨kernel, rfl⟩ hsymbol
    obtain ⟨item, hitem, hnext⟩ := ItemSet.mem_nextSymbols.mp hsymbol
    refine ⟨item.advanced, ItemSet.closure_congr fun other => ?_⟩
    rw [ItemSet.mem_kernel, List.mem_singleton]
    constructor
    · rintro ⟨moved, hmoved, hmovedNext, rfl⟩
      rw [eq_of_next?_eq h hproductive hfree hmoved hitem hmovedNext hnext]
    · rintro rfl
      exact ⟨item, hitem, hnext, rfl⟩

theorem eq_of_complete {state : Nat} {complete item : Item}
    (hcomplete : complete ∈ (Automaton.ofGrammar grammar).itemsAt state)
    (hnext : complete.next? grammar.augmented = none)
    (hitem : item ∈ (Automaton.ofGrammar grammar).itemsAt state) : item = complete := by
  obtain ⟨kernel, hkernel⟩ :=
    exists_kernel h hproductive hfree _ (Automaton.mem_states_of_mem_itemsAt hcomplete)
  rw [hkernel] at hcomplete hitem
  -- a body is not empty, so no predicted item is complete
  have hpredicted : ∀ (item : Item) symbol rule, item.next? grammar.augmented = some symbol →
      rule ∈ grammar.augmented.rulesFor symbol →
        (Item.initial rule).next? grammar.augmented ≠ none := by
    intro item symbol rule hitemNext hrule hnone
    obtain ⟨production, hproduction, rfl⟩ :=
      Automaton.exists_production_of_predicted hitemNext hrule
    have hbody := Item.behind_eq_nil hnone
    rw [Item.behind_initial, Grammar.augmented_body_of_production? hproduction] at hbody
    exact hfree.body_ne_nil (Grammar.mem_of_production? hproduction) hbody
  have hgiven : complete = kernel := by
    rcases ItemSet.mem_closure_cases hcomplete with
      hgiven | ⟨predicting, _, symbol, hpredicting, rule, hrule, rfl⟩
    · exact List.mem_singleton.mp hgiven
    · exact absurd hnext (hpredicted predicting symbol rule hpredicting hrule)
  subst hgiven
  refine ItemSet.closure_induct (motive := fun item => item = complete) ?_ ?_ item hitem
  · exact fun item hitem => List.mem_singleton.mp hitem
  · rintro _ symbol rule rfl hsymbol _
    rw [hnext] at hsymbol
    cases hsymbol

/-- No state demands two actions before one symbol, whatever the FOLLOW sets. -/
theorem exists_ofFollow (follow : FollowSets) :
    ∃ shiftReduce, Parser.ofFollow grammar follow = .ok shiftReduce := by
  rw [Parser.exists_ofFollow_iff]
  intro state lookahead action action' hdemand hdemand'
  have halone : ∀ {complete item : Item},
      complete ∈ (Automaton.ofGrammar grammar).itemsAt state →
      complete.next? grammar.augmented = none →
      item ∈ (Automaton.ofGrammar grammar).itemsAt state → item = complete :=
    fun hcomplete hnext hitem => eq_of_complete h hproductive hfree hcomplete hnext hitem
  cases hdemand with
  | shift hitem hnext hkind htarget =>
      cases hdemand' with
      | shift _ _ _ htarget' => rw [Option.some.inj (htarget.symm.trans htarget')]
      | reduce hitem' hnext' =>
          cases halone hitem' hnext' hitem
          cases hnext.symm.trans hnext'
      | accept => cases hkind
  | reduce hitem hnext hrule =>
      cases hdemand' with
      | shift hitem' hnext' =>
          cases halone hitem hnext hitem'
          cases hnext.symm.trans hnext'
      | reduce hitem' => rw [halone hitem hnext hitem']
      | accept hitem' _ hrule' =>
          cases halone hitem hnext hitem'
          exact absurd hrule' hrule
  | accept hitem hnext hrule =>
      cases hdemand' with
      | shift _ _ hkind => cases hkind
      | reduce hitem' _ hrule' =>
          cases halone hitem hnext hitem'
          exact absurd hrule hrule'
      | accept => rfl

end OwnSets

end ShiftReduce

/-! ## Classes of grammars -/

namespace Analysis

/-- A productive grammar without empty alternatives that has a predictive parser has a shift-reduce
parser as well: it is never of the class that is LL(1) only. -/
theorem grammarClass_ne_ll1Only {grammar : Grammar} (hproductive : grammar.Productive)
    (hfree : grammar.EpsilonFree) :
    ((∃ parser, (ofGrammar grammar).ll1 = .ok parser) →
      ∃ parser, (ofGrammar grammar).slr1 = .ok parser) ∧
    (ofGrammar grammar).grammarClass ≠ .ll1Only := by
  have himplies : (∃ parser, (ofGrammar grammar).ll1 = .ok parser) →
      ∃ parser, (ofGrammar grammar).slr1 = .ok parser := by
    rintro ⟨parser, h⟩
    exact ShiftReduce.exists_ofFollow h hproductive hfree _
  refine ⟨himplies, ?_⟩
  intro hclass
  unfold grammarClass at hclass
  split at hclass
  · cases hclass
  · rename_i parser conflict hll1 hslr1
    obtain ⟨other, hother⟩ := himplies ⟨parser, hll1⟩
    cases hslr1.symm.trans hother
  · cases hclass
  · cases hclass

/-- Two nonterminals for nothing: which of them comes first is seen at once, but not which of them
was read. -/
def twoBlanks : Grammar where
  start := .nonterminal "S"
  productions := [
    ⟨.nonterminal "S", [.nonterminal "A", .terminal "a", .nonterminal "A", .terminal "b"]⟩,
    ⟨.nonterminal "S", [.nonterminal "B", .terminal "b", .nonterminal "B", .terminal "a"]⟩,
    ⟨.nonterminal "A", [.epsilon]⟩,
    ⟨.nonterminal "B", [.epsilon]⟩]
  wellFormed := Grammar.wellFormed_of_fault?_eq_none (by decide)

-- the alternatives have to be nonempty
example : (ofGrammar twoBlanks).grammarClass = .ll1Only := by decide +kernel

/-- Commands and blocks of one or more of them. -/
def commands : Grammar where
  start := .nonterminal "C"
  productions := [
    ⟨.nonterminal "C", [.terminal "x"]⟩,
    ⟨.nonterminal "C", [.terminal "begin", .nonterminal "C", .nonterminal "R"]⟩,
    ⟨.nonterminal "R", [.terminal ";", .nonterminal "C", .nonterminal "R"]⟩,
    ⟨.nonterminal "R", [.terminal "end"]⟩]
  wellFormed := Grammar.wellFormed_of_fault?_eq_none (by decide)

theorem commands_productive : commands.Productive :=
  Grammar.productive_of_rank (fun _ => 0) (by decide)

/-- The predictive parser for `commands` shows that there is a shift-reduce parser. -/
theorem grammarClass_ne_ll1Only_commands :
    commands.Productive ∧ commands.EpsilonFree ∧
      (∃ parser, (ofGrammar commands).ll1 = .ok parser) ∧
      (∃ parser, (ofGrammar commands).slr1 = .ok parser) ∧
      (ofGrammar commands).grammarClass ≠ .ll1Only := by
  have hfree : commands.EpsilonFree := by decide
  have hmade : ((ofGrammar commands).ll1.toOption.map fun parser => parser.accepts ["x"]) =
      some true := by decide +kernel
  obtain ⟨parser, h, _⟩ := exists_ok_of_toOption_map hmade
  obtain ⟨himplies, hclass⟩ := grammarClass_ne_ll1Only commands_productive hfree
  exact ⟨commands_productive, hfree, ⟨parser, h⟩, himplies ⟨parser, h⟩, hclass⟩

end Analysis

end TableParsing
