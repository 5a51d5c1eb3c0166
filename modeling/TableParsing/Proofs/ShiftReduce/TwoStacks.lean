import TableParsing.Proofs.Sentence
import TableParsing.Proofs.ShiftReduce.Driver
import TableParsing.Proofs.Tables

/-!
# The driver on two stacks

`Parser.step` keeps each symbol in one frame with the state behind it.  Here the
states and the symbols stand on two stacks that are cut and grown separately, and
the input is a list with a cursor: nothing in the definition keeps the one stack
longer by one than the other, the cursor inside the input, or the body of a
production on top of what is cut off.  Each way in which a step could miss what
it looks for is a `Fault` of its own.

Whatever FOLLOW sets the table was made with, none of the faults occurs
(`inOrder_of_stateAfter`): the states are the path of the automaton that the
symbols spell, a reduction finds its body on top of them and a goto below it, and
the only refusal is that there is no action.  The reason is that the two stacks
go along with the frames (`step_ofConfig`), from step to step and up to the
verdict (`halts_iff`), and that frames stay linked.
-/

namespace TableParsing.ShiftReduce

open Machine

/-- The stacks of states and of symbols, each from its bottom, and the place in the input. -/
structure TwoStacks where
  states : List Nat
  symbols : List Symbol
  cursor : Nat
deriving DecidableEq, Repr

/-- What a step could look for in vain. -/
inductive Fault where
  | noState
  | noInput
  | noProduction (rule : Nat)
  /-- The body of a production is as long as the stack of states, or longer. -/
  | shortStack (production : Production)
  | noGoto (state : Nat) (production : Production)
deriving DecidableEq, Repr

namespace TwoStacks

/-- The first state alone, at the beginning of the input. -/
def start : TwoStacks := ⟨[0], [], 0⟩

/-- Cuts the body of a production off both stacks, and puts its left-hand side and a goto there. -/
def reduce (parser : Parser) (production : Production) (config : TwoStacks) :
    Step TwoStacks (Except Fault Move) :=
  let length := production.body.length
  if config.states.length ≤ length then
    .halt (.error (.shortStack production)) false
  else
    let states := config.states.take (config.states.length - length)
    let symbols := config.symbols.take (config.symbols.length - length)
    match states.getLast? with
    | none => .halt (.error .noState) false
    | some uncovered =>
      match parser.table.goto? uncovered production.lhs with
      | some target =>
        .next (.ok (.reduced production))
          ⟨states ++ [target], symbols ++ [production.lhs], config.cursor⟩
      | none => .halt (.error (.noGoto uncovered production)) false

/-- A step before an input, which ends with the end marker. -/
def step (parser : Parser) (input : List Symbol) (config : TwoStacks) :
    Step TwoStacks (Except Fault Move) :=
  match config.states.getLast?, input[config.cursor]? with
  | none, _ => .halt (.error .noState) false
  | some _, none => .halt (.error .noInput) false
  | some state, some lookahead =>
    match parser.table.action? state lookahead with
    | some (.shift target) =>
      .next (.ok (.shifted lookahead target))
        ⟨config.states ++ [target], config.symbols ++ [lookahead], config.cursor + 1⟩
    | some (.reduce rule) =>
      match parser.automaton.grammar.production? rule with
      | some production => reduce parser production config
      | none => .halt (.error (.noProduction rule)) false
    | some .accept => .halt (.ok .accepted) true
    | none => .halt (.ok (.blocked state lookahead)) false

/-! ## What is to be shown of the stacks -/

section Order

variable (grammar : Grammar) (parser : Parser) (input : List Symbol) (config : TwoStacks)

/-- A reduction by a rule finds all that it needs. -/
structure CanReduce (rule : Nat) (production : Production) : Prop where
  /-- The rule is one of the grammar itself, not the one that was added to it. -/
  own : grammar.production? rule = some production
  ne_startRule : rule ≠ parser.automaton.startRule
  found : parser.automaton.grammar.production? rule = some production
  length_lt : production.body.length < config.states.length
  length_le : production.body.length ≤ config.symbols.length
  body_on_top :
    config.symbols.drop (config.symbols.length - production.body.length) = production.body
  goto : ∃ uncovered target,
    config.states[config.states.length - 1 - production.body.length]? = some uncovered ∧
      parser.table.goto? uncovered production.lhs = some target

/-- The states are a path of the automaton that the symbols spell, the cursor is in the input,
reductions find what they need, and nothing is refused but for want of an action. -/
structure InOrder : Prop where
  length_states : config.states.length = config.symbols.length + 1
  bottom : config.states[0]? = some 0
  path : ∀ index symbol, config.symbols[index]? = some symbol → ∃ source target,
    config.states[index]? = some source ∧ config.states[index + 1]? = some target ∧
      parser.automaton.transition? source symbol = some target
  cursor_lt : config.cursor < input.length
  canReduce : ∀ state lookahead rule, config.states.getLast? = some state →
    input[config.cursor]? = some lookahead →
      parser.table.action? state lookahead = some (.reduce rule) →
        ∃ production, CanReduce grammar parser config rule production
  refusal : ∀ move, step parser input config = .halt move false → ∃ state lookahead,
    move = .ok (.blocked state lookahead) ∧ config.states.getLast? = some state ∧
      input[config.cursor]? = some lookahead ∧ parser.table.action? state lookahead = none

end Order

/-! ## Frames on two stacks -/

/-- The states of a stack of frames from its bottom, where the first state stands. -/
def statesOf (frames : List Frame) : List Nat := 0 :: (frames.map Frame.state).reverse

theorem statesOf_append (upper lower : List Frame) :
    statesOf (upper ++ lower) = statesOf lower ++ (upper.map Frame.state).reverse := by
  simp [statesOf]

@[simp] theorem statesOf_cons (frame : Frame) (below : List Frame) :
    statesOf (frame :: below) = statesOf below ++ [frame.state] :=
  statesOf_append [frame] below

@[simp] theorem length_statesOf (frames : List Frame) :
    (statesOf frames).length = frames.length + 1 := by
  simp [statesOf]

@[simp] theorem getLast?_statesOf (frames : List Frame) :
    (statesOf frames).getLast? = some (topState frames) := by
  cases frames with
  | nil => rfl
  | cons frame below => rw [statesOf_cons, List.getLast?_concat, topState_cons]

private theorem take_statesOf (upper lower : List Frame) :
    (statesOf (upper ++ lower)).take ((statesOf (upper ++ lower)).length - upper.length) =
      statesOf lower := by
  have hleft : (statesOf (upper ++ lower)).length - upper.length = (statesOf lower).length := by
    simp only [length_statesOf, List.length_append]
    omega
  rw [hleft, statesOf_append, List.take_left' rfl]

private theorem length_spelled_sub (upper lower : List Frame) :
    (spelled (upper ++ lower)).length - upper.length = (spelled lower).length := by
  rw [length_spelled, length_spelled, List.length_append, Nat.add_sub_cancel_left]

private theorem take_spelled (upper lower : List Frame) :
    (spelled (upper ++ lower)).take ((spelled (upper ++ lower)).length - upper.length) =
      spelled lower := by
  rw [length_spelled_sub, spelled_append, List.take_left' rfl]

private theorem drop_spelled (upper lower : List Frame) :
    (spelled (upper ++ lower)).drop ((spelled (upper ++ lower)).length - upper.length) =
      spelled upper := by
  rw [length_spelled_sub, spelled_append, List.drop_left' rfl]

private theorem getElem?_statesOf (upper lower : List Frame) :
    (statesOf (upper ++ lower))[lower.length]? = some (topState lower) := by
  rw [statesOf_append, List.getElem?_append_left (by simp), ← getLast?_statesOf,
    List.getLast?_eq_getElem?, length_statesOf, Nat.add_sub_cancel]

/-- Linked frames are a path of the automaton. -/
theorem exists_transition?_of_linked {automaton : Automaton} {frames : List Frame}
    (h : Linked automaton frames) {index : Nat} {symbol : Symbol}
    (hsymbol : (spelled frames)[index]? = some symbol) : ∃ source target,
      (statesOf frames)[index]? = some source ∧ (statesOf frames)[index + 1]? = some target ∧
        automaton.transition? source symbol = some target := by
  induction frames with
  | nil => cases hsymbol
  | cons frame below ih =>
      rw [spelled_cons] at hsymbol
      have hlength := length_statesOf below
      rcases Nat.lt_trichotomy index below.length with hlt | heq | hgt
      · rw [List.getElem?_append_left (by rwa [length_spelled])] at hsymbol
        rw [statesOf_cons, List.getElem?_append_left (by omega),
          List.getElem?_append_left (by omega)]
        exact ih h.2 hsymbol
      · subst heq
        rw [← length_spelled, List.getElem?_concat_length] at hsymbol
        cases hsymbol
        refine ⟨topState below, frame.state, getElem?_statesOf [frame] below, ?_, h.1⟩
        rw [statesOf_cons, ← hlength, List.getElem?_concat_length]
      · rw [List.getElem?_eq_none (by simp [length_spelled]; omega)] at hsymbol
        cases hsymbol

/-- A configuration of the driver on two stacks. -/
def ofConfig (word : List Symbol) (framed : Config) : TwoStacks :=
  ⟨statesOf framed.frames, spelled framed.frames, word.length - framed.rest.length⟩

theorem ofConfig_start (word : List Symbol) : ofConfig word (Parser.start word) = start := by
  simp [start, ofConfig, Parser.start, statesOf, spelled]

variable {grammar : Grammar} {follow : FollowSets} {parser : Parser} {word : List Symbol}

/-- At the cursor stands the next symbol of what is left to read. -/
theorem getElem?_cursor {rest : List Symbol} (h : rest <:+ word) :
    (word ++ [.endMarker])[word.length - rest.length]? = some (nextOf rest) := by
  obtain ⟨read, rfl⟩ := h
  rw [List.length_append, Nat.add_sub_cancel, List.append_assoc,
    List.getElem?_append_right (Nat.le_refl _), Nat.sub_self]
  cases rest with
  | nil => rfl
  | cons symbol rest => rfl

/-! ## What the frames keep -/

/-- The frames are linked, and what is left to read is an end of the word. -/
structure Tracks (grammar : Grammar) (word : List Symbol) (framed : Config) : Prop where
  isWord : IsWord word
  linked : Linked (Automaton.ofGrammar grammar) framed.frames
  rest : framed.rest <:+ word

namespace Tracks

variable {framed : Config}

theorem isWord_rest (htracks : Tracks grammar word framed) : IsWord framed.rest :=
  fun symbol hsymbol => htracks.isWord symbol (htracks.rest.mem hsymbol)

theorem start (grammar : Grammar) (hword : IsWord word) :
    Tracks grammar word (Parser.start word) :=
  ⟨hword, linked_nil, List.suffix_refl word⟩

theorem next (h : Parser.ofFollow grammar follow = .ok parser)
    (htracks : Tracks grammar word framed) {move : Move} {following : Config}
    (hstep : parser.step framed = .next move following) : Tracks grammar word following := by
  obtain ⟨frames, rest⟩ := framed
  have heffect := Parser.step_effect h htracks.linked htracks.isWord_rest
  rw [hstep] at heffect
  cases heffect with
  | shifted frames symbol rest target _ htarget =>
      exact ⟨htracks.isWord, ⟨htarget, htracks.linked⟩,
        (List.suffix_cons symbol rest).trans htracks.rest⟩
  | reduced frames frames' rest production hreduces =>
      exact ⟨htracks.isWord, hreduces.linked htracks.linked, htracks.rest⟩

end Tracks

/-- A demand to reduce can be met on the two stacks. -/
theorem exists_canReduce (h : Parser.ofFollow grammar follow = .ok parser)
    {frames : List Frame} (hlinked : Linked (Automaton.ofGrammar grammar) frames)
    {lookahead : Symbol} {rule : Nat}
    (haction : parser.table.action? (topState frames) lookahead = some (.reduce rule))
    (rest : List Symbol) :
    ∃ production, CanReduce grammar parser (ofConfig word ⟨frames, rest⟩) rule production := by
  obtain ⟨frames', hreduces⟩ := Parser.exists_reduces h hlinked haction
  obtain @⟨upper, lower, applied, target, production, happlied, hproduction, hspelled, htarget⟩ :=
    hreduces
  cases happlied.symm.trans haction
  have hlength : production.body.length = upper.length := by rw [← hspelled, length_spelled]
  refine ⟨production, hproduction, ?_, Parser.automaton_production? h hproduction, ?_, ?_, ?_,
    topState lower, target, ?_, Parser.goto?_lhs h hproduction htarget⟩
  · rw [Parser.automaton_eq h]
    exact Grammar.ne_startRule_of_production? hproduction
  · simp only [ofConfig, length_statesOf, List.length_append]
    omega
  · simp only [ofConfig, length_spelled, List.length_append]
    omega
  · simp only [ofConfig, hlength, drop_spelled, hspelled]
  · simp only [ofConfig, length_statesOf, List.length_append, hlength, Nat.add_sub_cancel,
      Nat.add_sub_cancel_left]
    exact getElem?_statesOf upper lower

/-! ## The two stacks go along with the frames -/

/-- A body on top of the frames is on top of both stacks. -/
theorem reduce_ofConfig {upper lower : List Frame} {rest : List Symbol} {target : Nat}
    {production : Production} (hspelled : spelled upper = production.body)
    (hgoto : parser.table.goto? (topState lower) production.lhs = some target) :
    reduce parser production (ofConfig word ⟨upper ++ lower, rest⟩) =
      .next (.ok (.reduced production))
        (ofConfig word ⟨⟨production.lhs, target⟩ :: lower, rest⟩) := by
  have hlength : production.body.length = upper.length := by rw [← hspelled, length_spelled]
  have hlong : ¬ (statesOf (upper ++ lower)).length ≤ upper.length := by
    rw [length_statesOf, List.length_append]
    omega
  simp only [reduce, ofConfig, hlength, if_neg hlong, take_statesOf, take_spelled,
    getLast?_statesOf, hgoto, statesOf_cons, spelled_cons]

theorem step_ofConfig_of_reduces (h : Parser.ofFollow grammar follow = .ok parser)
    {frames frames' : List Frame} {rest : List Symbol} (hrest : rest <:+ word)
    (hreduces : Parser.Reduces grammar parser (nextOf rest) frames frames') :
    step parser (word ++ [.endMarker]) (ofConfig word ⟨frames, rest⟩) =
      (parser.step ⟨frames, rest⟩).map .ok (ofConfig word) := by
  obtain @⟨upper, lower, rule, target, production, haction, hproduction, hspelled, htarget⟩ :=
    hreduces
  rw [Parser.step_reduced h haction hproduction hspelled htarget, Step.map,
    ← reduce_ofConfig hspelled (Parser.goto?_lhs h hproduction htarget)]
  simp only [step, ofConfig, getLast?_statesOf, getElem?_cursor hrest, haction,
    Parser.automaton_production? h hproduction]

/-- On two stacks the driver takes the same steps. -/
theorem step_ofConfig (h : Parser.ofFollow grammar follow = .ok parser) {framed : Config}
    (htracks : Tracks grammar word framed) :
    step parser (word ++ [.endMarker]) (ofConfig word framed) =
      (parser.step framed).map .ok (ofConfig word) := by
  obtain ⟨frames, rest⟩ := framed
  have hlookahead : (word ++ [.endMarker])[word.length - rest.length]? = some (nextOf rest) :=
    getElem?_cursor htracks.rest
  cases haction : parser.table.action? (topState frames) (nextOf rest) with
  | none =>
      simp only [step, ofConfig, getLast?_statesOf, hlookahead, Parser.step, Parser.lookahead_eq,
        haction, Step.map]
  | some action =>
      cases action with
      | shift target =>
          -- what is shifted is a terminal, so there is something left to read
          cases rest with
          | nil =>
              cases (Parser.action?_eq_some_iff h).mp haction with
              | shift _ _ hkind => cases hkind
          | cons symbol rest =>
              have hlength : rest.length + 1 ≤ word.length := htracks.rest.length_le
              have hcursor : word.length - (rest.length + 1) + 1 = word.length - rest.length := by
                omega
              rw [nextOf_cons] at haction
              rw [nextOf_cons, List.length_cons] at hlookahead
              rw [Parser.step_shifted haction]
              simp only [step, ofConfig, getLast?_statesOf, List.length_cons, hlookahead, haction,
                hcursor, Step.map, statesOf_cons, spelled_cons]
      | reduce rule =>
          obtain ⟨frames', hreduces⟩ := Parser.exists_reduces h htracks.linked haction
          exact step_ofConfig_of_reduces h htracks.rest hreduces
      | accept =>
          simp only [step, ofConfig, getLast?_statesOf, hlookahead, Parser.step,
            Parser.lookahead_eq, haction, Step.map]

/-- The run on two stacks passes through the configurations of the driver. -/
theorem stateAfter_ofConfig (h : Parser.ofFollow grammar follow = .ok parser)
    (hword : IsWord word) (steps : Nat) :
    stateAfter (step parser (word ++ [.endMarker])) steps start =
      (stateAfter parser.step steps (Parser.start word)).map (ofConfig word) := by
  rw [← ofConfig_start word]
  exact stateAfter_mirror (fun _ _ _ hstep htracks => Tracks.next h htracks hstep)
    (fun _ => step_ofConfig h) (Tracks.start grammar hword)

theorem halts_iff (h : Parser.ofFollow grammar follow = .ok parser) (hword : IsWord word)
    {accepted : Bool} :
    Halts (step parser (word ++ [.endMarker])) start accepted ↔
      Halts parser.step (Parser.start word) accepted := by
  have hverdict : ∀ steps, verdictWithin (step parser (word ++ [.endMarker])) steps start =
      verdictWithin parser.step steps (Parser.start word) := by
    rw [← ofConfig_start word]
    exact fun steps => verdictWithin_mirror
      (fun _ _ _ hstep htracks => Tracks.next h htracks hstep) (fun _ => step_ofConfig h)
      (Tracks.start grammar hword)
  exact exists_congr fun steps => by rw [hverdict]

/-! ## No fault occurs -/

theorem Tracks.inOrder (h : Parser.ofFollow grammar follow = .ok parser) {framed : Config}
    (htracks : Tracks grammar word framed) :
    InOrder grammar parser (word ++ [.endMarker]) (ofConfig word framed) := by
  have hlookahead := getElem?_cursor htracks.rest
  refine ⟨?_, rfl, ?_, (List.getElem?_eq_some_iff.mp hlookahead).1, ?_, ?_⟩
  · simp only [ofConfig, length_statesOf, length_spelled]
  · intro index symbol hsymbol
    rw [Parser.automaton_eq h]
    exact exists_transition?_of_linked htracks.linked hsymbol
  · intro state lookahead rule hstate hnext haction
    cases (getLast?_statesOf framed.frames).symm.trans hstate
    cases hlookahead.symm.trans hnext
    exact exists_canReduce h htracks.linked haction framed.rest
  · intro move hmove
    rw [step_ofConfig h htracks] at hmove
    have heffect := Parser.step_effect h htracks.linked htracks.isWord_rest
    generalize houtcome : parser.step framed = outcome at hmove
    obtain ⟨frames, rest⟩ := framed
    rw [houtcome] at heffect
    cases heffect with
    | shifted | reduced | accepted => cases hmove
    | blocked frames rest haction =>
        cases hmove
        exact ⟨topState frames, nextOf rest, rfl, getLast?_statesOf frames, hlookahead, haction⟩

/-- Whatever the FOLLOW sets, every configuration of the run on a list of atoms is in order, and it is
the one that the driver has come to. -/
theorem inOrder_of_stateAfter (h : Parser.ofFollow grammar follow = .ok parser)
    {atoms : List String} (hword : Word.ofAtoms? atoms = some word) {steps : Nat}
    {config : TwoStacks}
    (hreached : stateAfter (step parser (word ++ [.endMarker])) steps start = some config) :
    InOrder grammar parser (word ++ [.endMarker]) config ∧
      ∃ framed, stateAfter parser.step steps (Parser.start word) = some framed ∧
        config = ofConfig word framed := by
  have hisWord := Word.isWord_of_ofAtoms? hword
  rw [stateAfter_ofConfig h hisWord] at hreached
  obtain ⟨framed, hframed, rfl⟩ := Option.map_eq_some_iff.mp hreached
  have htracks : Tracks grammar word framed :=
    stateAfter_induct hframed (Tracks.start grammar hisWord)
      fun _ _ _ hstep htracks => Tracks.next h htracks hstep
  exact ⟨htracks.inOrder h, framed, hframed, rfl⟩

/-- Any number of `a` before a mark. -/
def marked (mark : Symbol) : List Production := [
  ⟨.nonterminal "S", [.nonterminal "A", mark]⟩,
  ⟨.nonterminal "A", [.terminal "a", .nonterminal "A"]⟩,
  ⟨.nonterminal "A", [.epsilon]⟩]

def markedByC : Grammar where
  start := .nonterminal "S"
  productions := marked (.terminal "c")
  wellFormed := Grammar.wellFormed_of_fault?_eq_none (by decide)

def markedByD : Grammar where
  start := .nonterminal "S"
  productions := marked (.terminal "d")
  wellFormed := Grammar.wellFormed_of_fault?_eq_none (by decide)

/-- With the FOLLOW sets of `markedByD` the parser of `markedByC` reads `a d` as far as to two
reductions before the wrong mark.  The second one finds its body `a A`, and then there is no action. -/
theorem inOrder_markedByC :
    ∃ parser, Parser.ofFollow markedByC
        (FollowSets.ofGrammar markedByD (FirstSets.ofGrammar markedByD)) = .ok parser ∧
      (∃ production, CanReduce markedByC parser
        ⟨[0, 1, 4], [.terminal "a", .nonterminal "A"], 1⟩ 1 production) ∧
      InOrder markedByC parser [.terminal "a", .terminal "d", .endMarker]
        ⟨[0, 2], [.nonterminal "A"], 1⟩ ∧
      step parser [.terminal "a", .terminal "d", .endMarker] ⟨[0, 2], [.nonterminal "A"], 1⟩ =
        .halt (.ok (.blocked 2 (.terminal "d"))) false := by
  have hruns : ((Parser.ofFollow markedByC
      (FollowSets.ofGrammar markedByD (FirstSets.ofGrammar markedByD))).toOption.map
        fun parser =>
          ([2, 3].map fun steps =>
            stateAfter (step parser [.terminal "a", .terminal "d", .endMarker]) steps start,
          parser.table.action? 4 (.terminal "d"),
          step parser [.terminal "a", .terminal "d", .endMarker]
            ⟨[0, 2], [.nonterminal "A"], 1⟩)) =
      some ([some ⟨[0, 1, 4], [.terminal "a", .nonterminal "A"], 1⟩,
          some ⟨[0, 2], [.nonterminal "A"], 1⟩],
        some (.reduce 1), .halt (.ok (.blocked 2 (.terminal "d"))) false) := by
    decide +kernel
  obtain ⟨parser, h, hanswers⟩ := exists_ok_of_toOption_map hruns
  simp only [List.map_cons, List.map_nil, Prod.mk.injEq, List.cons.injEq, and_true] at hanswers
  obtain ⟨⟨hsecond, hthird⟩, haction, hblocked⟩ := hanswers
  have hword : Word.ofAtoms? ["a", "d"] = some [.terminal "a", .terminal "d"] := by decide
  exact ⟨parser, h,
    (inOrder_of_stateAfter h hword hsecond).1.canReduce 4 (.terminal "d") 1 rfl rfl haction,
    (inOrder_of_stateAfter h hword hthird).1, hblocked⟩

end TwoStacks

end TableParsing.ShiftReduce
