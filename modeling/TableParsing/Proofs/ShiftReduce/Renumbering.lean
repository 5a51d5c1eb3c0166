import TableParsing.Proofs.Reordering
import TableParsing.Proofs.ShiftReduce.Collection
import TableParsing.Proofs.ShiftReduce.Recognition
import TableParsing.Proofs.ShiftReduce.TwoStacks

/-!
# Automata that differ in their numbers only

Item sets are ordered by the numbers of the rules, the states are found in an order
that depends on the order of the symbols behind the dots and on the grammar's first
item, and the table is filled state by state and item by item.  If the rules of a
grammar get other numbers, all of this may come out differently, but it means the
same.

* The closure of renumbered items is the renumbered closure, and moving the dot
  commutes with renumbering as well.  So the states of the one automaton,
  renumbered, are the states of the other, and the place at which a state is found
  there is its new number (`Automaton.renumbers_ofGrammar`).
* Automata that are related in this way (`Automaton.Renumbers`) demand the same
  actions up to the numbers (`Renumbers.demand_iff`): one of them has a table if and
  only if the other has.
* The drivers then take the same steps on stacks whose states are renumbered
  (`Renumbers.step_renumbered`), so they come to the same verdicts and go on for ever
  on the same inputs, for whatever FOLLOW sets.
-/

namespace TableParsing.ShiftReduce

open Machine

variable {renumber : Equiv.Perm ℕ} {grammar grammar' : Grammar}

/-! ## Items -/

namespace Item

/-- The item with another number for its rule. -/
def renumbered (renumber : Equiv.Perm ℕ) (item : Item) : Item := ⟨renumber item.rule, item.dot⟩

@[simp] theorem renumbered_initial (rule : Nat) :
    (initial rule).renumbered renumber = initial (renumber rule) := rfl

@[simp] theorem renumbered_advanced (item : Item) :
    item.advanced.renumbered renumber = (item.renumbered renumber).advanced := rfl

@[simp] theorem renumbered_symm (item : Item) :
    (item.renumbered renumber).renumbered renumber.symm = item := by
  simp [renumbered]

private theorem renumbered_injective : Function.Injective (renumbered renumber) :=
  Function.LeftInverse.injective (g := renumbered renumber.symm) renumbered_symm

theorem next?_renumbered (h : grammar.Renumbers renumber grammar') (item : Item) :
    (item.renumbered renumber).next? grammar' = item.next? grammar := by
  rw [next?, next?, renumbered, h.body_eq]

end Item

namespace ItemSet

def renumbered (renumber : Equiv.Perm ℕ) (items : ItemSet) : ItemSet :=
  .ofList (items.toList.map (Item.renumbered renumber))

theorem mem_renumbered {items : ItemSet} {item : Item} :
    item ∈ items.renumbered renumber ↔ ∃ own ∈ items, own.renumbered renumber = item := by
  simp only [renumbered, SortedSet.mem_ofList, List.mem_map, SortedSet.mem_toList]

theorem renumbered_mem_iff {items : ItemSet} {item : Item} :
    item.renumbered renumber ∈ items.renumbered renumber ↔ item ∈ items := by
  rw [mem_renumbered]
  constructor
  · rintro ⟨own, hown, hsame⟩
    exact Item.renumbered_injective hsame ▸ hown
  · exact fun h => ⟨item, h, rfl⟩

@[simp] theorem renumbered_symm (items : ItemSet) :
    (items.renumbered renumber).renumbered renumber.symm = items := by
  apply SortedSet.ext_mem
  intro item
  rw [mem_renumbered]
  constructor
  · rintro ⟨_, hown, rfl⟩
    obtain ⟨own, hmem, rfl⟩ := mem_renumbered.mp hown
    rwa [Item.renumbered_symm]
  · exact fun h => ⟨item.renumbered renumber, renumbered_mem_iff.mpr h, Item.renumbered_symm item⟩

theorem closure_renumbered (h : grammar.Renumbers renumber grammar') {items items' : List Item}
    (hitems : ∀ item, item ∈ items' ↔ ∃ own ∈ items, own.renumbered renumber = item) :
    closure grammar' items' = (closure grammar items).renumbered renumber := by
  apply SortedSet.ext_mem
  intro item
  constructor
  · -- what the renumbered items predict are renumbered predictions
    revert item
    apply closure_induct
    · intro item hitem
      obtain ⟨own, hown, rfl⟩ := (hitems item).mp hitem
      exact renumbered_mem_iff.mpr (mem_closure hown)
    · intro item symbol rule hitem hnext hrule
      obtain ⟨own, hown, rfl⟩ := mem_renumbered.mp hitem
      rw [Item.next?_renumbered h] at hnext
      rw [← renumber.apply_symm_apply rule] at hrule ⊢
      exact renumbered_mem_iff.mpr
        (closed_closure items own hown symbol hnext _ (h.mem_rulesFor_iff.mp hrule))
  · rw [mem_renumbered]
    rintro ⟨own, hown, rfl⟩
    revert own
    apply closure_induct
    · exact fun own hown => mem_closure ((hitems _).mpr ⟨own, hown, rfl⟩)
    · intro own symbol rule hown hnext hrule
      rw [← Item.next?_renumbered h] at hnext
      exact closed_closure items' _ hown symbol hnext _ (h.mem_rulesFor_iff.mpr hrule)

theorem nextSymbols_renumbered (h : grammar.Renumbers renumber grammar') (items : ItemSet) :
    nextSymbols grammar' (items.renumbered renumber) = nextSymbols grammar items := by
  apply SortedSet.ext_mem
  intro symbol
  simp only [mem_nextSymbols, mem_renumbered]
  constructor
  · rintro ⟨_, ⟨own, hown, rfl⟩, hnext⟩
    exact ⟨own, hown, (Item.next?_renumbered h own).symm.trans hnext⟩
  · rintro ⟨own, hown, hnext⟩
    exact ⟨_, ⟨own, hown, rfl⟩, (Item.next?_renumbered h own).trans hnext⟩

/-- Moving the dot commutes with renumbering. -/
theorem successor_renumbered (h : grammar.Renumbers renumber grammar') (items : ItemSet)
    (symbol : Symbol) :
    successor grammar' (items.renumbered renumber) symbol =
      (successor grammar items symbol).renumbered renumber := by
  apply closure_renumbered h
  intro item
  simp only [mem_kernel, mem_renumbered]
  constructor
  · rintro ⟨_, ⟨own, hown, rfl⟩, hnext, rfl⟩
    exact ⟨own.advanced, ⟨own, hown, (Item.next?_renumbered h own).symm.trans hnext, rfl⟩, rfl⟩
  · rintro ⟨_, ⟨own, hown, hnext, rfl⟩, rfl⟩
    exact ⟨_, ⟨own, hown, rfl⟩, (Item.next?_renumbered h own).trans hnext, rfl⟩

end ItemSet

/-! ## Automata -/

namespace Automaton

/-- The states and the rules of one automaton under other numbers are those of another one. -/
structure Renumbers (onState onRule : ℕ → ℕ) (automaton automaton' : Automaton) : Prop where
  zero : onState 0 = 0
  /-- Every state of the other automaton is the number of a state. -/
  surjective : ∀ number < automaton'.states.length,
    ∃ state < automaton.states.length, onState state = number
  mem_itemsAt : ∀ state < automaton.states.length, ∀ item,
    item ∈ automaton'.itemsAt (onState state) ↔
      ∃ own ∈ automaton.itemsAt state, ⟨onRule own.rule, own.dot⟩ = item
  transition? : ∀ state < automaton.states.length, ∀ symbol,
    automaton'.transition? (onState state) symbol =
      (automaton.transition? state symbol).map onState
  production? : ∀ rule, automaton'.grammar.production? (onRule rule) =
    automaton.grammar.production? rule
  startRule : ∀ rule, onRule rule = automaton'.startRule ↔ rule = automaton.startRule

section OfGrammar

theorem start_renumbered (h : grammar.Renumbers renumber grammar') :
    ItemSet.closure grammar'.augmented [.initial grammar'.startRule] =
      (ItemSet.closure grammar.augmented [.initial grammar.startRule]).renumbered renumber := by
  apply ItemSet.closure_renumbered h.augmented
  simp [h.startRule_eq, eq_comm]

theorem renumbered_mem_states (h : grammar.Renumbers renumber grammar') :
    ∀ items ∈ (ofGrammar grammar).states,
      items.renumbered renumber ∈ (ofGrammar grammar').states := by
  apply states_induct (motive := fun items =>
    items.renumbered renumber ∈ (ofGrammar grammar').states)
  · rw [← start_renumbered h]
    exact List.mem_of_getElem? (getElem?_states_zero grammar')
  · intro items symbol hitems hsymbol
    rw [← ItemSet.successor_renumbered h.augmented]
    rw [← ItemSet.nextSymbols_renumbered h.augmented] at hsymbol
    exact successor_mem_states hitems hsymbol

/-- The number of a state in the automaton of the renumbered grammar. -/
def newNumber (renumber : Equiv.Perm ℕ) (grammar grammar' : Grammar) (state : Nat) : Nat :=
  (ofGrammar grammar').states.idxOf (((ofGrammar grammar).itemsAt state).renumbered renumber)

theorem getElem?_newNumber (h : grammar.Renumbers renumber grammar') {state : Nat}
    {items : ItemSet} (hitems : (ofGrammar grammar).states[state]? = some items) :
    (ofGrammar grammar').states[newNumber renumber grammar grammar' state]? =
      some (items.renumbered renumber) := by
  rw [newNumber, itemsAt_of_getElem? hitems]
  exact List.getElem?_idxOf (renumbered_mem_states h items (List.mem_of_getElem? hitems))

/-- As the states are distinct, the renumbered items are found nowhere else. -/
theorem newNumber_eq (h : grammar.Renumbers renumber grammar') {state number : Nat}
    {items : ItemSet} (hitems : (ofGrammar grammar).states[state]? = some items)
    (hnumber : (ofGrammar grammar').states[number]? = some (items.renumbered renumber)) :
    newNumber renumber grammar grammar' state = number := by
  have hfound := getElem?_newNumber h hitems
  have hlt := (List.getElem?_eq_some_iff.mp hfound).1
  exact (List.getElem?_inj hlt (states_nodup grammar')).mp (hfound.trans hnumber.symm)

private theorem newNumber_symm (h : grammar.Renumbers renumber grammar') {state : Nat}
    (hstate : state < (ofGrammar grammar).states.length) :
    newNumber renumber.symm grammar' grammar (newNumber renumber grammar grammar' state) =
      state := by
  have hitems := List.getElem?_eq_getElem hstate
  apply newNumber_eq h.symm (getElem?_newNumber h hitems)
  rw [ItemSet.renumbered_symm, hitems]

private theorem newNumber_lt (h : grammar.Renumbers renumber grammar') {state : Nat}
    (hstate : state < (ofGrammar grammar).states.length) :
    newNumber renumber grammar grammar' state < (ofGrammar grammar').states.length :=
  (List.getElem?_eq_some_iff.mp (getElem?_newNumber h (List.getElem?_eq_getElem hstate))).1

theorem transition?_newNumber (h : grammar.Renumbers renumber grammar') {state : Nat}
    (hstate : state < (ofGrammar grammar).states.length) (symbol : Symbol) :
    (ofGrammar grammar').transition? (newNumber renumber grammar grammar' state) symbol =
      ((ofGrammar grammar).transition? state symbol).map
        (newNumber renumber grammar grammar') := by
  have hitems := List.getElem?_eq_getElem hstate
  have hfound := getElem?_newNumber h hitems
  ext number
  rw [Option.map_eq_some_iff]
  constructor
  · intro hnumber
    obtain ⟨items', hitems', hsymbol, htarget'⟩ := getElem?_states_of_transition? hnumber
    obtain rfl := Option.some.inj (hfound.symm.trans hitems')
    rw [ItemSet.nextSymbols_renumbered h.augmented] at hsymbol
    obtain ⟨target, htarget⟩ := exists_transition?_iff.mpr
      ⟨_, hitems, ItemSet.mem_nextSymbols.mp hsymbol⟩
    obtain ⟨items, hown, _, hmoved⟩ := getElem?_states_of_transition? htarget
    obtain rfl := Option.some.inj (hitems.symm.trans hown)
    rw [ItemSet.successor_renumbered h.augmented] at htarget'
    exact ⟨target, htarget, newNumber_eq h hmoved htarget'⟩
  · rintro ⟨target, htarget, rfl⟩
    obtain ⟨items, hown, hsymbol, hmoved⟩ := getElem?_states_of_transition? htarget
    obtain rfl := Option.some.inj (hitems.symm.trans hown)
    rw [← ItemSet.nextSymbols_renumbered h.augmented] at hsymbol
    obtain ⟨number, hnumber⟩ := exists_transition?_iff.mpr
      ⟨_, hfound, ItemSet.mem_nextSymbols.mp hsymbol⟩
    obtain ⟨items', hitems', _, htarget'⟩ := getElem?_states_of_transition? hnumber
    obtain rfl := Option.some.inj (hfound.symm.trans hitems')
    rw [ItemSet.successor_renumbered h.augmented] at htarget'
    rw [hnumber, newNumber_eq h hmoved htarget']

/-- Renumbering the rules of a grammar renumbers the states and the rules of its automaton. -/
theorem renumbers_ofGrammar (h : grammar.Renumbers renumber grammar') :
    Renumbers (newNumber renumber grammar grammar') renumber (ofGrammar grammar)
      (ofGrammar grammar') where
  zero := newNumber_eq h (getElem?_states_zero grammar)
    ((getElem?_states_zero grammar').trans (congrArg some (start_renumbered h)))
  surjective number hnumber :=
    ⟨newNumber renumber.symm grammar' grammar number, newNumber_lt h.symm hnumber,
      newNumber_symm h.symm hnumber⟩
  mem_itemsAt state hstate item := by
    have hitems := List.getElem?_eq_getElem hstate
    rw [itemsAt_of_getElem? (getElem?_newNumber h hitems), itemsAt_of_getElem? hitems]
    exact ItemSet.mem_renumbered
  transition? _ hstate symbol := transition?_newNumber h hstate symbol
  production? := h.augmented.production?
  startRule rule := by
    show renumber rule = grammar'.startRule ↔ rule = grammar.startRule
    rw [← h.startRule_eq, renumber.apply_eq_iff_eq]

end OfGrammar

end Automaton

theorem Linked.topState_lt {frames : List Frame}
    (h : Linked (Automaton.ofGrammar grammar) frames) :
    topState frames < (Automaton.ofGrammar grammar).states.length := by
  cases frames with
  | nil => exact (List.getElem?_eq_some_iff.mp (Automaton.getElem?_states_zero grammar)).1
  | cons frame below =>
      obtain ⟨_, _, _, htarget⟩ := Automaton.getElem?_states_of_transition? h.1
      exact (List.getElem?_eq_some_iff.mp htarget).1

/-! ## Tables and drivers -/

/-- The action with other numbers for its state or rule. -/
def Action.renumbered (onState onRule : ℕ → ℕ) : Action → Action
  | shift state => shift (onState state)
  | reduce rule => reduce (onRule rule)
  | accept => accept

def Frame.renumbered (onState : ℕ → ℕ) (frame : Frame) : Frame :=
  ⟨frame.symbol, onState frame.state⟩

/-- The configuration with other numbers for the states on its stack. -/
def Config.renumbered (onState : ℕ → ℕ) (config : Config) : Config :=
  ⟨config.frames.map (Frame.renumbered onState), config.rest⟩

def Move.renumbered (onState : ℕ → ℕ) : Move → Move
  | shifted symbol state => shifted symbol (onState state)
  | reduced production => reduced production
  | accepted => accepted
  | blocked state lookahead => blocked (onState state) lookahead

theorem topState_renumbered {onState : ℕ → ℕ} (hzero : onState 0 = 0) (frames : List Frame) :
    topState (frames.map (Frame.renumbered onState)) = onState (topState frames) := by
  cases frames with
  | nil => exact hzero.symm
  | cons frame below => rfl

namespace Automaton.Renumbers

variable {onState onRule : ℕ → ℕ} {automaton automaton' : Automaton} {follow : FollowSets}
  {parser parser' : Parser}

theorem next?_eq (h : automaton.Renumbers onState onRule automaton') (item : Item) :
    Item.next? automaton'.grammar ⟨onRule item.rule, item.dot⟩ =
      item.next? automaton.grammar := by
  rw [Item.next?, Item.next?, Grammar.body, Grammar.body, h.production?]

/-- The same actions are demanded, up to the numbers. -/
theorem demand_iff (h : automaton.Renumbers onState onRule automaton') {state : Nat}
    (hstate : state < automaton.states.length) {lookahead : Symbol} {action : Action} :
    Table.Demand automaton' follow (onState state) lookahead action ↔
      ∃ own, Table.Demand automaton follow state lookahead own ∧
        own.renumbered onState onRule = action := by
  constructor
  · intro hdemand
    cases hdemand with
    | shift hitem hnext hkind htarget =>
        obtain ⟨own, hown, rfl⟩ := (h.mem_itemsAt state hstate _).mp hitem
        rw [h.transition? state hstate, Option.map_eq_some_iff] at htarget
        obtain ⟨target, htarget, rfl⟩ := htarget
        exact ⟨_, .shift hown ((h.next?_eq own).symm.trans hnext) hkind htarget, rfl⟩
    | reduce hitem hnext hrule hproduction hlookahead =>
        obtain ⟨own, hown, rfl⟩ := (h.mem_itemsAt state hstate _).mp hitem
        have hownRule : own.rule ≠ automaton.startRule := fun hsame =>
          hrule ((h.startRule own.rule).mpr hsame)
        exact ⟨_, .reduce hown ((h.next?_eq own).symm.trans hnext) hownRule
          ((h.production? own.rule).symm.trans hproduction) hlookahead, rfl⟩
    | accept hitem hnext hrule =>
        obtain ⟨own, hown, rfl⟩ := (h.mem_itemsAt state hstate _).mp hitem
        exact ⟨_, .accept hown ((h.next?_eq own).symm.trans hnext)
          ((h.startRule own.rule).mp hrule), rfl⟩
  · rintro ⟨own, hdemand, rfl⟩
    cases hdemand with
    | @shift item symbol target hitem hnext hkind htarget =>
        refine .shift ((h.mem_itemsAt state hstate _).mpr ⟨item, hitem, rfl⟩)
          ((h.next?_eq item).trans hnext) hkind ?_
        rw [h.transition? state hstate, htarget]
        rfl
    | @reduce item production lookahead hitem hnext hrule hproduction hlookahead =>
        have hotherRule : onRule item.rule ≠ automaton'.startRule := fun hsame =>
          hrule ((h.startRule item.rule).mp hsame)
        exact .reduce ((h.mem_itemsAt state hstate _).mpr ⟨item, hitem, rfl⟩)
          ((h.next?_eq item).trans hnext) hotherRule
          ((h.production? item.rule).trans hproduction) hlookahead
    | @accept item hitem hnext hrule =>
        exact .accept ((h.mem_itemsAt state hstate _).mpr ⟨item, hitem, rfl⟩)
          ((h.next?_eq item).trans hnext) ((h.startRule item.rule).mpr hrule)

theorem exists_ofFollow
    (h : (ofGrammar grammar).Renumbers onState onRule (ofGrammar grammar'))
    (hmade : ∃ parser, Parser.ofFollow grammar follow = .ok parser) :
    ∃ parser', Parser.ofFollow grammar' follow = .ok parser' := by
  rw [Parser.exists_ofFollow_iff] at hmade ⊢
  intro number lookahead first second hfirst hsecond
  obtain ⟨item, hitem, _⟩ := hfirst.exists_item
  have hnumber := (List.getElem?_eq_some_iff.mp (getElem?_states_of_mem_itemsAt hitem)).1
  obtain ⟨state, hstate, rfl⟩ := h.surjective number hnumber
  obtain ⟨own, hown, rfl⟩ := (h.demand_iff hstate).mp hfirst
  obtain ⟨other, hother, rfl⟩ := (h.demand_iff hstate).mp hsecond
  rw [hmade state lookahead own other hown hother]

section Drivers

variable (h : (ofGrammar grammar).Renumbers onState onRule (ofGrammar grammar'))
  (hparser : Parser.ofFollow grammar follow = .ok parser)
  (hparser' : Parser.ofFollow grammar' follow = .ok parser')

include h hparser hparser'

theorem action?_eq {state : Nat} (hstate : state < (ofGrammar grammar).states.length)
    (lookahead : Symbol) :
    parser'.table.action? (onState state) lookahead =
      (parser.table.action? state lookahead).map (Action.renumbered onState onRule) := by
  ext action
  rw [Parser.action?_eq_some_iff hparser', h.demand_iff hstate, Option.map_eq_some_iff]
  simp only [Parser.action?_eq_some_iff hparser]

theorem goto?_eq {state : Nat} (hstate : state < (ofGrammar grammar).states.length)
    (symbol : Symbol) :
    parser'.table.goto? (onState state) symbol =
      (parser.table.goto? state symbol).map onState := by
  ext target
  rw [Parser.goto?_eq_some_iff hparser', h.transition? state hstate, Option.map_eq_some_iff,
    Option.map_eq_some_iff]
  simp only [Parser.goto?_eq_some_iff hparser]
  grind

theorem reduce_renumbered {config : Config} (hlinked : Linked (ofGrammar grammar) config.frames)
    (production : Production) :
    parser'.reduce production (config.renumbered onState) =
      (parser.reduce production config).map (Move.renumbered onState)
        (Config.renumbered onState) := by
  have hsplit : Linked (ofGrammar grammar) (config.frames.take production.body.length ++
      config.frames.drop production.body.length) := by
    rwa [List.take_append_drop]
  have hbelow : Linked (ofGrammar grammar) (config.frames.drop production.body.length) :=
    hsplit.of_append
  have hgoto := h.goto?_eq hparser hparser' hbelow.topState_lt production.lhs
  rw [← topState_renumbered h.zero, List.map_drop] at hgoto
  simp only [Parser.reduce, Config.renumbered, List.length_map, hgoto]
  split
  · cases parser.table.goto? (topState (config.frames.drop production.body.length))
      production.lhs with
    | none => rfl
    | some target =>
        simp only [Option.map_some, Step.map, Move.renumbered, Config.renumbered, List.map_cons,
          List.map_drop, Frame.renumbered]
  · rfl

/-- On a stack whose states have other numbers the driver takes the same step. -/
theorem step_renumbered {config : Config} (hlinked : Linked (ofGrammar grammar) config.frames) :
    parser'.step (config.renumbered onState) =
      (parser.step config).map (Move.renumbered onState) (Config.renumbered onState) := by
  have htop : topState (config.renumbered onState).frames = onState (topState config.frames) :=
    topState_renumbered h.zero config.frames
  have hlookahead : (config.renumbered onState).lookahead = config.lookahead := rfl
  have haction := h.action?_eq hparser hparser' hlinked.topState_lt config.lookahead
  simp only [Parser.step, htop, hlookahead, haction]
  cases parser.table.action? (topState config.frames) config.lookahead with
  | none => rfl
  | some action =>
      cases action with
      | shift target => rfl
      | accept => rfl
      | reduce rule =>
          have hproduction := h.production? rule
          rw [← Parser.automaton_eq hparser, ← Parser.automaton_eq hparser'] at hproduction
          simp only [Option.map_some, Action.renumbered, hproduction]
          cases parser.automaton.grammar.production? rule with
          | none => rfl
          | some production => exact h.reduce_renumbered hparser hparser' hlinked production

/-! ## Runs -/

variable {word : List Symbol}

theorem halts_iff (hword : IsWord word) {accepted : Bool} :
    Halts parser'.step (Parser.start word) accepted ↔
      Halts parser.step (Parser.start word) accepted := by
  have hverdict : ∀ steps, verdictWithin parser'.step steps (Parser.start word) =
      verdictWithin parser.step steps (Parser.start word) := fun steps =>
    verdictWithin_mirror
      (fun _ _ _ hstep htracks => TwoStacks.Tracks.next hparser htracks hstep)
      (fun _ htracks => h.step_renumbered hparser hparser' htracks.linked)
      (TwoStacks.Tracks.start grammar hword)
  simp only [Halts, hverdict]

theorem forever_iff (hword : IsWord word) :
    Forever parser'.step (Parser.start word) ↔ Forever parser.step (Parser.start word) := by
  have hstate : ∀ steps, stateAfter parser'.step steps (Parser.start word) =
      (stateAfter parser.step steps (Parser.start word)).map (Config.renumbered onState) :=
    fun steps => stateAfter_mirror
      (fun _ _ _ hstep htracks => TwoStacks.Tracks.next hparser htracks hstep)
      (fun _ htracks => h.step_renumbered hparser hparser' htracks.linked)
      (TwoStacks.Tracks.start grammar hword)
  simp only [Forever, hstate, Option.map_eq_some_iff]
  exact forall_congr' fun steps => ⟨fun ⟨_, own, hown, _⟩ => ⟨own, hown⟩,
    fun ⟨own, hown⟩ => ⟨_, own, hown, rfl⟩⟩

theorem answers_iff {atoms : List String} {accepted : Bool} :
    parser'.Answers atoms accepted ↔ parser.Answers atoms accepted := by
  unfold Parser.Answers Machine.Answers
  cases hatoms : Word.ofAtoms? atoms with
  | none => rfl
  | some word => exact h.halts_iff hparser hparser' (Word.isWord_of_ofAtoms? hatoms)

theorem diverges_iff {atoms : List String} :
    Diverges parser'.step Parser.start atoms ↔ Diverges parser.step Parser.start atoms := by
  unfold Diverges
  cases hatoms : Word.ofAtoms? atoms with
  | none => rfl
  | some word => exact h.forever_iff hparser hparser' (Word.isWord_of_ofAtoms? hatoms)

end Drivers

end Automaton.Renumbers

end TableParsing.ShiftReduce
