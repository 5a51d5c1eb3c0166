import TableParsing.Proofs.ParseTree
import TableParsing.Proofs.Sets.Follow
import TableParsing.Proofs.ShiftReduce.Driver

/-!
# Planting trees along a run

`Parser.plantingStep` is the driver with a second stack, which holds a tree for
every frame: a shift puts a leaf on it, a reduction takes the trees of the body
and puts a node in their place.  With sets that satisfy the demands of the
grammar, the driver rebuilds any parse tree of its input, with one step for each
leaf and node of the tree (`stateAfter_of_parses`): the item that stands for the
rest of a body passes over one symbol after the other, and a completed body is
followed by a symbol that is in FOLLOW of its left-hand side.

Since the driver is deterministic, there is but one tree to rebuild
(`parses_unique`).
-/

namespace TableParsing.ShiftReduce.Parser

open Machine

variable {grammar : Grammar} {first : FirstSets} {follow : FollowSets} {parser : Parser}

/-- The trees after a step. -/
def plant (parser : Parser) (config : Config) (trees : List Tree) : List Tree :=
  match parser.table.action? (topState config.frames) config.lookahead with
  | some (.shift _) => .leaf config.lookahead.atom :: trees
  | some (.reduce rule) =>
    let length := (parser.automaton.grammar.body rule).length
    .node rule (trees.take length).reverse :: trees.drop length
  | _ => trees

/-- A step of the driver that goes on with the trees. -/
def plantingStep (parser : Parser) (state : Config × List Tree) : Step (Config × List Tree) Move :=
  (parser.step state.1).mapState fun config => (config, parser.plant state.1 state.2)

/-- Planting trees does not change a run. -/
theorem stateAfter_of_planting {steps : Nat} {config config' : Config} {trees trees' : List Tree}
    (h : stateAfter parser.plantingStep steps (config, trees) = some (config', trees')) :
    stateAfter parser.step steps config = some config' := by
  refine stateAfter_project Prod.fst (fun state move following hplanting => ?_) h
  obtain ⟨config, hstep, rfl⟩ := Step.exists_of_mapState_eq_next hplanting
  exact ⟨move, hstep⟩

private theorem plantingStep_shifted {frames : List Frame} {atom : String} {rest : List Symbol}
    {target : Nat}
    (haction : parser.table.action? (topState frames) (.terminal atom) = some (.shift target))
    (trees : List Tree) :
    parser.plantingStep (⟨frames, .terminal atom :: rest⟩, trees) =
      .next (.shifted (.terminal atom) target)
        (⟨⟨.terminal atom, target⟩ :: frames, rest⟩, .leaf atom :: trees) := by
  simp only [plantingStep, step_shifted haction, Step.mapState, plant, lookahead_eq, nextOf_cons,
    haction]
  rfl

private theorem plantingStep_reduced (h : ofFollow grammar follow = .ok parser) {upper lower : List Frame}
    {rest : List Symbol} {rule target : Nat} {production : Production} {children : List Tree}
    (haction : parser.table.action? (topState (upper ++ lower)) (nextOf rest) =
      some (.reduce rule))
    (hproduction : grammar.production? rule = some production)
    (hspelled : spelled upper = production.body)
    (htarget : (Automaton.ofGrammar grammar).transition? (topState lower) production.lhs =
      some target)
    (hchildren : children.length = production.body.length) (trees : List Tree) :
    ∃ move, parser.plantingStep (⟨upper ++ lower, rest⟩, children.reverse ++ trees) =
      .next move (⟨⟨production.lhs, target⟩ :: lower, rest⟩, .node rule children :: trees) := by
  have hreduces := Reduces.replace haction hproduction hspelled htarget
  obtain ⟨own, hstep⟩ := hreduces.step_eq h
  have hlength : (parser.automaton.grammar.body rule).length = children.reverse.length := by
    have hbody : parser.automaton.grammar.body rule = production.body := by
      rw [automaton_eq h]
      exact Grammar.augmented_body_of_production? hproduction
    rw [hbody, List.length_reverse, hchildren]
  refine ⟨.reduced own, ?_⟩
  simp only [plantingStep, hstep, Step.mapState, plant, lookahead_eq, haction, hlength,
    List.take_left, List.drop_left, List.reverse_reverse]

/-! ## Rebuilding trees -/

/-- The driver reads a word, spells symbols on top of some frames, plants the trees of the symbols,
and comes to a state in which a rule is completed. -/
def Completes (grammar : Grammar) (parser : Parser) (frames : List Frame) (rule : Nat)
    (symbols : List Symbol) (trees : List Tree) (word rest : List Symbol)
    (below : List Tree) : Prop :=
  ∃ upper, stateAfter parser.plantingStep (Tree.sizes trees) (⟨frames, word ++ rest⟩, below) =
      some (⟨upper ++ frames, rest⟩, trees.reverse ++ below) ∧
    Linked (Automaton.ofGrammar grammar) (upper ++ frames) ∧ spelled upper = symbols ∧
    ∃ complete ∈ (Automaton.ofGrammar grammar).itemsAt (topState (upper ++ frames)),
      complete.rule = rule ∧ complete.next? grammar.augmented = none

/-- A tree that takes one frame goes before those above the frame. -/
theorem Completes.cons {frame : Frame} {frames : List Frame} {rule : Nat} {symbols : List Symbol}
    {tree : Tree} {trees : List Tree} {yield word rest : List Symbol} {below : List Tree}
    (h : Completes grammar parser (frame :: frames) rule symbols trees word rest (tree :: below))
    (hrun : stateAfter parser.plantingStep tree.size
      (⟨frames, yield ++ (word ++ rest)⟩, below) =
        some (⟨frame :: frames, word ++ rest⟩, tree :: below)) :
    Completes grammar parser frames rule (frame.symbol :: symbols) (tree :: trees) (yield ++ word)
      rest below := by
  obtain ⟨upper, hrest, hlinked, hspelled, hcomplete⟩ := h
  refine ⟨upper ++ [frame], ?_, ?_, ?_, ?_⟩
  · rw [Tree.sizes_cons, List.append_assoc, stateAfter_add hrun, hrest]
    simp
  · simpa using hlinked
  · rw [spelled_append, hspelled]
    rfl
  · simpa using hcomplete

/-- The driver rebuilds the trees of the symbols behind the dot of an item in its state, and comes
to complete the item. -/
theorem completes_of_parses (h : ofFollow grammar follow = .ok parser)
    (hfirst : first.Closed grammar) (hfollow : FollowSets.Closed grammar first follow)
    {symbols : List Symbol} {trees : List Tree} {word : List Symbol}
    (htrees : grammar.Parses symbols trees word) {frames : List Frame}
    (hlinked : Linked (Automaton.ofGrammar grammar) frames) {item : Item}
    (hitem : item ∈ (Automaton.ofGrammar grammar).itemsAt (topState frames))
    (hbehind : item.behind grammar.augmented = symbols) {rest : List Symbol}
    (hcovers : FollowSets.Covers first follow [.endMarker] (symbols ++ rest))
    (hrest : IsWord rest) (below : List Tree) :
    Completes grammar parser frames item.rule symbols trees word rest below := by
  induction htrees generalizing frames item rest below with
  | nil =>
      refine ⟨[], rfl, hlinked, rfl, item, hitem, rfl, ?_⟩
      rw [Item.next?_eq_head?, hbehind, List.head?_nil]
  | @leaf symbols trees word atom _ ih =>
      have hnext := Item.next?_of_behind hbehind
      obtain ⟨target, htarget, hadvanced⟩ := Automaton.exists_transition? hitem hnext
      have haction := (action?_eq_some_iff h).mpr (.shift hitem hnext rfl htarget)
      have hlinked' : Linked (Automaton.ofGrammar grammar) (⟨.terminal atom, target⟩ :: frames) :=
        ⟨htarget, hlinked⟩
      have hafter := ih hlinked' hadvanced (Item.behind_advanced hbehind) hcovers.2 hrest
        (.leaf atom :: below)
      have hshifted : stateAfter parser.plantingStep (Tree.leaf atom).size
          (⟨frames, [.terminal atom] ++ (word ++ rest)⟩, below) =
            some (⟨⟨.terminal atom, target⟩ :: frames, word ++ rest⟩, .leaf atom :: below) :=
        stateAfter_one (plantingStep_shifted haction below)
      exact hafter.cons hshifted
  | @node rule production symbol children yield symbols trees word hrule hlhs hbelow hafter
      ihBelow ihAfter =>
      subst hlhs
      have hproduction := Grammar.mem_of_production? hrule
      have hkind := Grammar.lhs_isNonterminal hproduction
      have hnext := Item.next?_of_behind hbehind
      obtain ⟨target, htarget, hadvanced⟩ := Automaton.exists_transition? hitem hnext
      have hword : IsWord (word ++ rest) := isWord_append.mpr ⟨hafter.isWord, hrest⟩
      have hderives : grammar.Derives (symbols ++ rest) (word ++ rest) :=
        hafter.derives.append_right rest
      -- the item at the beginning of the node's rule leads over its children
      have hinitial := Automaton.initial_mem_itemsAt hitem hrule hnext
      have hbody : FollowSets.Covers first follow [.endMarker]
          (production.body ++ (word ++ rest)) := by
        have hform := (Grammar.derives_body hproduction [] (symbols ++ rest)).trans
          (hderives.append_left production.body)
        exact hfollow.covers_of_derives hfirst hform hcovers
      obtain ⟨inner, hinner, _, hspelled, complete, hcomplete, rfl, hcompleteNext⟩ :=
        ihBelow hlinked hinitial (Grammar.augmented_body_of_production? hrule) hbody hword below
      -- and the symbol after them allows to reduce
      have haction := (action?_eq_some_iff h).mpr (.reduce hcomplete hcompleteNext
        (Grammar.ne_startRule_of_production? hrule)
        (Grammar.augmented_production?_of_production? hrule)
        (FollowSets.Closed.nextOf_mem hfirst hcovers hkind hderives hword))
      obtain ⟨move, hreduced⟩ := plantingStep_reduced h haction hrule hspelled htarget
        hbelow.length_eq below
      have hlinked' : Linked (Automaton.ofGrammar grammar) (⟨production.lhs, target⟩ :: frames) :=
        ⟨htarget, hlinked⟩
      have hrest' := ihAfter hlinked' hadvanced (Item.behind_advanced hbehind) hcovers.2 hrest
        (.node complete.rule children :: below)
      exact hrest'.cons (stateAfter_trans hinner (stateAfter_one hreduced))

/-! ## Whole words -/

/-- The driver rebuilds any tree of its input, and accepts. -/
theorem exists_accepting_run (h : ofFollow grammar follow = .ok parser)
    (hfirst : first.Closed grammar) (hfollow : FollowSets.Closed grammar first follow) {tree : Tree}
    {word : List Symbol} (htree : grammar.Parses [grammar.start] [tree] word) :
    ∃ config, stateAfter parser.plantingStep tree.size (start word, []) = some (config, [tree]) ∧
      parser.step config = .halt .accepted true := by
  have hitem := Automaton.initial_startRule_mem_itemsAt grammar
  have hcovers : FollowSets.Covers first follow [.endMarker] ([grammar.start] ++ []) :=
    hfollow.covers_start
  obtain ⟨upper, hrun, _, _, complete, hcomplete, hrule, hnext⟩ :=
    completes_of_parses h hfirst hfollow htree linked_nil hitem grammar.augmented_body_startRule
      hcovers isWord_nil []
  have haction : parser.table.action? (topState (upper ++ [])) .endMarker = some .accept :=
    (action?_eq_some_iff h).mpr (.accept hcomplete hnext hrule)
  refine ⟨_, ?_, step_accepted haction⟩
  simpa [start] using hrun

theorem verdictWithin_of_parses (h : ofFollow grammar follow = .ok parser)
    (hfirst : first.Closed grammar) (hfollow : FollowSets.Closed grammar first follow) {tree : Tree}
    {word : List Symbol} (htree : grammar.Parses [grammar.start] [tree] word) :
    verdictWithin parser.step (tree.size + 1) (start word) = some true := by
  obtain ⟨config, hrun, hhalt⟩ := exists_accepting_run h hfirst hfollow htree
  rw [verdictWithin_add (stateAfter_of_planting hrun)]
  exact verdictWithin_of_halt hhalt

/-- Trees of one word are the same: the driver rebuilds both of them in one run. -/
theorem parses_unique (h : ofFollow grammar follow = .ok parser)
    (hfirst : first.Closed grammar) (hfollow : FollowSets.Closed grammar first follow)
    {tree tree' : Tree} {word : List Symbol} (htree : grammar.Parses [grammar.start] [tree] word)
    (htree' : grammar.Parses [grammar.start] [tree'] word) : tree = tree' := by
  have hplanting : ∀ config trees, parser.step config = .halt .accepted true →
      parser.plantingStep (config, trees) = .halt .accepted true := by
    intro config trees hstep
    rw [plantingStep, hstep, Step.mapState]
  obtain ⟨config, hrun, hhalt⟩ := exists_accepting_run h hfirst hfollow htree
  obtain ⟨config', hrun', hhalt'⟩ := exists_accepting_run h hfirst hfollow htree'
  -- one run ends in one state, with one tree
  have hsame := (eq_of_stateAfter_of_halt hrun hrun' (hplanting config [tree] hhalt)
    (hplanting config' [tree'] hhalt')).2
  cases hsame
  rfl

end TableParsing.ShiftReduce.Parser
