import Mathlib.Data.Set.Function
import TableParsing.Proofs.GrammarText.TextLines
import TableParsing.Proofs.TableRanges
import TableParsing.Report.Tables

/-!
# The printed tables

A parse table is a map from cells, and a grid that shows it goes through its rows
and columns and asks the map for each cell.  An entry whose row or column is not
among them is not shown.  `Grid.Prints` says that this does not happen: every entry
has a place in its block of the grid, no two entries have the same place, all cells
of the block that are not empty are places of entries, and each shows what its entry
is.

## Strategy

Which texts stand in a block of a grid is read off the grid (`ll1Grid_block`,
`slr1Grid_actions` and `slr1Grid_gotos`).  A block that asks a map for its texts
prints the map, provided that no entry is shown as an empty text and that the row
and the column of every entry are among the heads (`Grid.Block.prints`).  For the
latter it has to be known where a table can have entries at all
(`Predictive.Parser.range_of_rule?`, `ShiftReduce.Parser.range_of_action?` and
`ShiftReduce.Parser.range_of_goto?`).
-/

namespace TableParsing.Report

open Std

/-! ## Blocks of a grid -/

namespace Grid

variable {ρ ν : Type}

/-- The text in a row and a column.  The titles are in row 0. -/
def cell? (grid : Grid) (place : Nat × Nat) : Option String :=
  grid.rows[place.1]?.bind (·[place.2]?)

private theorem cell?_of_getElem? {grid : Grid} {row : Nat} {texts : List String}
    (h : grid.rows[row]? = some texts) (column : Nat) :
    grid.cell? (row, column) = texts[column]? := by
  rw [cell?, h, Option.bind_some]

/-- A block of a grid: the heads of its rows and of its columns, each once, and its texts. -/
structure Block (grid : Grid) (rowHeads : List ρ) (rowText : ρ → String)
    (columnHeads : List Symbol) (left : Nat) (text : ρ → Symbol → String) : Prop where
  rowHeads_nodup : rowHeads.Nodup
  columnHeads_nodup : columnHeads.Nodup
  /-- All rows below the titles have a head. -/
  height : grid.rows.length = rowHeads.length + 1
  rowTitles : ∀ row head, rowHeads[row]? = some head → grid.cell? (row + 1, 0) = some (rowText head)
  columnTitles : ∀ column head, columnHeads[column]? = some head →
    grid.cell? (0, left + column) = some head.text
  cells : ∀ row rowHead, rowHeads[row]? = some rowHead →
    ∀ column columnHead, columnHeads[column]? = some columnHead →
      grid.cell? (row + 1, left + column) = some (text rowHead columnHead)

variable {grid : Grid} {rowHeads : List ρ} {rowText : ρ → String} {columnHeads : List Symbol}
  {left : Nat} {text : ρ → Symbol → String}

private theorem getElem?_append_map_append {before behind : List String} (hlength : before.length = left)
    (shown : Symbol → String) {column : Nat} {head : Symbol}
    (hhead : columnHeads[column]? = some head) :
    (before ++ columnHeads.map shown ++ behind)[left + column]? = some (shown head) := by
  subst hlength
  have hlt : column < (columnHeads.map shown).length := by
    rw [List.length_map]
    exact (List.getElem?_eq_some_iff.mp hhead).1
  rw [List.append_assoc, List.getElem?_append_right (Nat.le_add_right _ _),
    Nat.add_sub_cancel_left, List.getElem?_append_left hlt, List.getElem?_map, hhead,
    Option.map_some]

/-- A grid has a block where its titles and all rows below them have texts of the heads behind
something of the same length. -/
theorem Block.of_rows (hrowHeads : rowHeads.Nodup) (hcolumnHeads : columnHeads.Nodup)
    (hheight : grid.rows.length = rowHeads.length + 1)
    (htitles : ∃ before behind : List String, before.length = left ∧
      grid.rows[0]? = some (before ++ columnHeads.map Symbol.text ++ behind))
    (hrow : ∀ (row : Nat) (head : ρ), rowHeads[row]? = some head →
      ∃ before behind : List String, before.length = left ∧ before.head? = some (rowText head) ∧
        grid.rows[row + 1]? = some (before ++ columnHeads.map (text head) ++ behind)) :
    grid.Block rowHeads rowText columnHeads left text := by
  refine ⟨hrowHeads, hcolumnHeads, hheight, ?_, ?_, ?_⟩
  · intro row head hhead
    obtain ⟨before, behind, _, hfirst, htexts⟩ := hrow row head hhead
    rw [cell?_of_getElem? htexts, List.append_assoc, ← List.head?_eq_getElem?, List.head?_append,
      hfirst]
    rfl
  · intro column head hhead
    obtain ⟨before, behind, hlength, htexts⟩ := htitles
    rw [cell?_of_getElem? htexts]
    exact getElem?_append_map_append hlength _ hhead
  · intro row rowHead hrowHead column columnHead hcolumnHead
    obtain ⟨before, behind, hlength, _, htexts⟩ := hrow row rowHead hrowHead
    rw [cell?_of_getElem? htexts]
    exact getElem?_append_map_append hlength _ hcolumnHead

/-! ## Places of cells -/

variable [DecidableEq ρ]

/-- Where a block has a cell of a table. -/
def place (rowHeads : List ρ) (columnHeads : List Symbol) (left : Nat) (cell : Cell ρ) : Nat × Nat :=
  (rowHeads.idxOf cell.row + 1, left + columnHeads.idxOf cell.column)

theorem Block.cell?_place (h : grid.Block rowHeads rowText columnHeads left text) {cell : Cell ρ}
    (hrow : cell.row ∈ rowHeads) (hcolumn : cell.column ∈ columnHeads) :
    grid.cell? (place rowHeads columnHeads left cell) = some (text cell.row cell.column) :=
  h.cells _ _ (List.getElem?_idxOf hrow) _ _ (List.getElem?_idxOf hcolumn)

/-- What stands in a block stands at the place of a cell. -/
theorem Block.exists_place_eq (h : grid.Block rowHeads rowText columnHeads left text)
    {row column : Nat} {content : String} (hrow : 0 < row) (hleft : left ≤ column)
    (hright : column < left + columnHeads.length)
    (hcontent : grid.cell? (row, column) = some content) :
    ∃ cell : Cell ρ, place rowHeads columnHeads left cell = (row, column) ∧
      content = text cell.row cell.column := by
  obtain ⟨above, rfl⟩ : ∃ above, row = above + 1 := ⟨row - 1, by omega⟩
  obtain ⟨offset, rfl⟩ : ∃ offset, column = left + offset := ⟨column - left, by omega⟩
  obtain ⟨texts, htexts, _⟩ := Option.bind_eq_some_iff.mp hcontent
  have habove : above < rowHeads.length := by
    have hlt := (List.getElem?_eq_some_iff.mp htexts).1
    rw [h.height] at hlt
    omega
  have hoffset : offset < columnHeads.length := by omega
  have hcell := h.cells above _ (List.getElem?_eq_getElem habove) offset _
    (List.getElem?_eq_getElem hoffset)
  refine ⟨⟨rowHeads[above], columnHeads[offset]⟩, ?_, Option.some.inj (hcontent.symm.trans hcell)⟩
  rw [place, h.rowHeads_nodup.idxOf_getElem, h.columnHeads_nodup.idxOf_getElem]

private theorem place_inj {cell cell' : Cell ρ} (hrow : cell.row ∈ rowHeads)
    (hcolumn : cell.column ∈ columnHeads)
    (h : place rowHeads columnHeads left cell = place rowHeads columnHeads left cell') :
    cell = cell' := by
  obtain ⟨hrows, hcolumns⟩ := Prod.mk.inj h
  calc cell
      = ⟨cell.row, cell.column⟩ := rfl
    _ = ⟨cell'.row, cell'.column⟩ := by
        rw [(List.idxOf_inj hrow).mp (Nat.succ.inj hrows),
          (List.idxOf_inj hcolumn).mp (Nat.add_left_cancel hcolumns)]
    _ = cell' := rfl

/-! ## Maps that are printed -/

/-- The places of a block of some columns whose cells are not empty. -/
def filled (grid : Grid) (left width : Nat) : Set (Nat × Nat) :=
  {place | 0 < place.1 ∧ left ≤ place.2 ∧ place.2 < left + width ∧
    ∃ text, grid.cell? place = some text ∧ text ≠ ""}

variable [Ord ρ]

/-- A block of a grid prints a map: the entries are the cells that are not empty. -/
structure Prints (grid : Grid) (map : SortedMap (Cell ρ) ν) (shown : ν → String)
    (rowHeads : List ρ) (rowText : ρ → String) (columnHeads : List Symbol) (left : Nat) : Prop where
  block : grid.Block rowHeads rowText columnHeads left fun row column =>
    (map.get? ⟨row, column⟩).elim "" shown
  within : ∀ cell entry, map.get? cell = some entry →
    cell.row ∈ rowHeads ∧ cell.column ∈ columnHeads
  bijOn : Set.BijOn (place rowHeads columnHeads left) {cell | ∃ entry, map.get? cell = some entry}
    (grid.filled left columnHeads.length)
  shows : ∀ cell entry, map.get? cell = some entry →
    grid.cell? (place rowHeads columnHeads left cell) = some (shown entry)

variable {map : SortedMap (Cell ρ) ν} {shown : ν → String}

/-- A block that asks a map for its texts prints it, unless an entry has no head or no text. -/
theorem Block.prints (h : grid.Block rowHeads rowText columnHeads left fun row column =>
      (map.get? ⟨row, column⟩).elim "" shown)
    (hwithin : ∀ cell entry, map.get? cell = some entry →
      cell.row ∈ rowHeads ∧ cell.column ∈ columnHeads)
    (hshown : ∀ cell entry, map.get? cell = some entry → shown entry ≠ "") :
    grid.Prints map shown rowHeads rowText columnHeads left := by
  have hshows : ∀ cell entry, map.get? cell = some entry →
      grid.cell? (place rowHeads columnHeads left cell) = some (shown entry) := by
    intro cell entry hentry
    obtain ⟨hrow, hcolumn⟩ := hwithin cell entry hentry
    have hcell := h.cell?_place hrow hcolumn
    have hsame : (⟨cell.row, cell.column⟩ : Cell ρ) = cell := rfl
    rwa [hsame, hentry] at hcell
  refine ⟨h, hwithin, ⟨?mapsTo, ?injOn, ?surjOn⟩, hshows⟩
  case mapsTo =>
    rintro cell ⟨entry, hentry⟩
    have hcolumn := List.idxOf_lt_length_iff.mpr (hwithin cell entry hentry).2
    exact ⟨Nat.succ_pos _, Nat.le_add_right _ _, Nat.add_lt_add_left hcolumn left,
      shown entry, hshows cell entry hentry, hshown cell entry hentry⟩
  case injOn =>
    rintro cell ⟨entry, hentry⟩ cell' _ hplace
    exact place_inj (hwithin cell entry hentry).1 (hwithin cell entry hentry).2 hplace
  case surjOn =>
    rintro ⟨row, column⟩ ⟨hrow, hleft, hright, content, hcontent, hne⟩
    obtain ⟨cell, hplace, htext⟩ := h.exists_place_eq hrow hleft hright hcontent
    refine ⟨cell, ?_, hplace⟩
    cases hentry : map.get? cell with
    | some entry => exact ⟨entry, hentry⟩
    | none =>
        -- a cell without an entry is empty
        have hempty : content = (map.get? cell).elim "" shown := htext
        rw [hentry, Option.elim_none] at hempty
        exact absurd hempty hne

end Grid

/-! ## The heads of the parse tables -/

variable {grammar : Grammar}

theorem mem_lookaheadColumns {symbol : Symbol} : symbol ∈ lookaheadColumns grammar ↔
    symbol ∈ grammar.terminals ∨ symbol = .endMarker := by
  simp [lookaheadColumns]

theorem lookaheadColumns_nodup (grammar : Grammar) : (lookaheadColumns grammar).Nodup := by
  refine List.nodup_append.mpr ⟨grammar.terminals.nodup, by simp, ?_⟩
  rintro symbol hsymbol marker hmarker rfl
  rw [List.mem_singleton.mp hmarker] at hsymbol
  cases (Grammar.mem_terminals.mp hsymbol).1

theorem lookaheadColumns_augmented (grammar : Grammar) :
    lookaheadColumns grammar.augmented = lookaheadColumns grammar := by
  rw [lookaheadColumns, grammar.terminals_augmented, lookaheadColumns]

/-- The new start symbol is the one nonterminal of an augmented grammar without a column. -/
theorem gotoColumns_augmented (grammar : Grammar) :
    gotoColumns grammar.augmented = grammar.nonterminals.toList := by
  have hset : grammar.augmented.nonterminals.filter (· != grammar.augmentedStart) =
      grammar.nonterminals := by
    apply SortedSet.ext_mem
    intro symbol
    rw [SortedSet.mem_filter, Grammar.mem_nonterminals_augmented]
    have hnew := grammar.augmentedStart_not_mem_nonterminals
    grind
  exact congrArg SortedSet.toList hset

/-! ## The predictive table -/

/-- The text of the production with a number. -/
def ruleText (grammar : Grammar) (rule : Nat) : String :=
  (grammar.production? rule).elim "" Production.text

private theorem text_production_ne_empty (production : Production) : production.text ≠ "" := by
  intro h
  have hlength := congrArg String.length h
  simp [Production.text] at hlength

private theorem text_action_ne_empty (action : ShiftReduce.Action) : action.text ≠ "" := by
  intro h
  have hlength := congrArg String.length h
  cases action <;> simp [ShiftReduce.Action.text] at hlength

private theorem toString_ne_empty (number : Nat) : toString number ≠ "" := by
  intro h
  exact GrammarText.toList_toString_ne_nil number (congrArg String.toList h)

theorem ll1Grid_block (parser : Predictive.Parser) :
    (ll1Grid parser).Block parser.grammar.nonterminals.toList Symbol.text
      (lookaheadColumns parser.grammar) 1 fun nonterminal lookahead =>
        (parser.table.entries.get? ⟨nonterminal, lookahead⟩).elim "" (ruleText parser.grammar) := by
  have htext : ∀ nonterminal, predictionText parser nonterminal = fun lookahead =>
      (parser.table.entries.get? ⟨nonterminal, lookahead⟩).elim "" (ruleText parser.grammar) := by
    intro nonterminal
    funext lookahead
    rw [predictionText, Predictive.Parser.predict?, Predictive.Table.rule?]
    cases parser.table.entries.get? ⟨nonterminal, lookahead⟩ <;> rfl
  refine .of_rows parser.grammar.nonterminals.nodup (lookaheadColumns_nodup _) (by simp [ll1Grid])
    ⟨[""], [], rfl, by simp [ll1Grid]⟩ fun row nonterminal hnonterminal => ?_
  refine ⟨[nonterminal.text], [], rfl, rfl, ?_⟩
  rw [← htext, ll1Grid, List.getElem?_cons_succ, List.getElem?_map, hnonterminal, List.append_nil]
  rfl

theorem length_of_mem_ll1Grid {parser : Predictive.Parser} {row : List String}
    (h : row ∈ (ll1Grid parser).rows) : row.length = 1 + (lookaheadColumns parser.grammar).length := by
  rw [Nat.add_comm]
  rcases List.mem_cons.mp h with rfl | hmem
  · rw [List.length_cons, List.length_map]
  · obtain ⟨nonterminal, _, rfl⟩ := List.mem_map.mp hmem
    rw [List.length_cons, List.length_map]

/-! ## The shift-reduce table -/

theorem slr1Grid_row (parser : ShiftReduce.Parser) {row state : Nat}
    (h : (List.range parser.automaton.states.length)[row]? = some state) :
    (slr1Grid parser).rows[row + 1]? = some
      ([toString state, itemsText parser.automaton.grammar (parser.automaton.itemsAt state)] ++
        (lookaheadColumns parser.automaton.grammar).map (actionText parser state) ++
          (gotoColumns parser.automaton.grammar).map (gotoText parser state)) := by
  obtain ⟨hlt, rfl⟩ := List.getElem?_eq_some_iff.mp h
  rw [List.length_range] at hlt
  have hitems : parser.automaton.states[row]? = some (parser.automaton.itemsAt row) := by
    rw [ShiftReduce.Automaton.itemsAt, List.getElem?_eq_getElem hlt, Option.getD_some]
  have hnumbered : parser.automaton.states.zipIdx[row]? =
      some (parser.automaton.itemsAt row, row) := by
    rw [List.getElem?_zipIdx, hitems, Option.map_some, Nat.zero_add]
  rw [slr1Grid, List.getElem?_cons_succ, List.getElem?_map, hnumbered, List.getElem_range]
  rfl

theorem slr1Grid_height (parser : ShiftReduce.Parser) : (slr1Grid parser).rows.length =
    (List.range parser.automaton.states.length).length + 1 := by
  simp [slr1Grid]

theorem slr1Grid_actions (parser : ShiftReduce.Parser) :
    (slr1Grid parser).Block (List.range parser.automaton.states.length) toString
      (lookaheadColumns parser.automaton.grammar) 2 (actionText parser) :=
  .of_rows List.nodup_range (lookaheadColumns_nodup _) (slr1Grid_height parser)
    ⟨_, _, rfl, rfl⟩ fun _ _ hstate => ⟨_, _, rfl, rfl, slr1Grid_row parser hstate⟩

theorem slr1Grid_gotos (parser : ShiftReduce.Parser) :
    (slr1Grid parser).Block (List.range parser.automaton.states.length) toString
      (gotoColumns parser.automaton.grammar) (2 + (lookaheadColumns parser.automaton.grammar).length)
      (gotoText parser) := by
  have hlength : ∀ (shown : Symbol → String) (first second : String), ([first, second] ++
      (lookaheadColumns parser.automaton.grammar).map shown).length =
        2 + (lookaheadColumns parser.automaton.grammar).length := by
    intro shown first second
    rw [List.length_append, List.length_map]
    rfl
  refine .of_rows List.nodup_range (parser.automaton.grammar.nonterminals.nodup.filter _)
    (slr1Grid_height parser)
    ⟨_, [], hlength Symbol.text "#" "LR(0) item closure", ?titles⟩ fun row state hstate => ?row
  case titles =>
    rw [List.append_nil]
    rfl
  case row =>
    have hrow := slr1Grid_row parser hstate
    rw [← List.append_nil (_ ++ (gotoColumns _).map _)] at hrow
    exact ⟨_, [], hlength _ _ _, rfl, hrow⟩

theorem length_of_mem_slr1Grid {parser : ShiftReduce.Parser} {row : List String}
    (h : row ∈ (slr1Grid parser).rows) : row.length =
      2 + (lookaheadColumns parser.automaton.grammar).length +
        (gotoColumns parser.automaton.grammar).length := by
  rcases List.mem_cons.mp h with rfl | hmem
  · rw [List.length_append, List.length_append, List.length_map, List.length_map]
    rfl
  · obtain ⟨⟨items, state⟩, _, rfl⟩ := List.mem_map.mp hmem
    rw [List.length_append, List.length_append, List.length_map, List.length_map]
    rfl

/-! ## Nothing is lost -/

theorem ll1Grid_prints {parser : Predictive.Parser}
    (h : (Analysis.ofGrammar grammar).ll1 = .ok parser) :
    (ll1Grid parser).Prints parser.table.entries (ruleText grammar) grammar.nonterminals.toList
      Symbol.text (lookaheadColumns grammar) 1 := by
  have hgrammar : parser.grammar = grammar := (Predictive.Parser.exists_table_of_ofSets h).1
  have hblock := ll1Grid_block parser
  rw [hgrammar] at hblock
  refine hblock.prints ?_ ?_
  · intro cell rule hrule
    obtain ⟨hrow, hcolumn⟩ := Predictive.Parser.range_of_rule? h hrule
    exact ⟨hrow, mem_lookaheadColumns.mpr hcolumn⟩
  · intro cell rule hrule
    obtain ⟨production, hproduction, _⟩ := (Predictive.Parser.rule?_eq_some_iff h).mp hrule
    rw [ruleText, hproduction]
    exact text_production_ne_empty production

theorem slr1Grid_prints_actions {parser : ShiftReduce.Parser}
    (h : (Analysis.ofGrammar grammar).slr1 = .ok parser) :
    (slr1Grid parser).Prints parser.table.actions ShiftReduce.Action.text
      (List.range parser.automaton.states.length) toString (lookaheadColumns grammar) 2 := by
  have hgrammar : parser.automaton.grammar = grammar.augmented := by
    rw [ShiftReduce.Parser.automaton_eq h]
    rfl
  have hblock := slr1Grid_actions parser
  rw [hgrammar, lookaheadColumns_augmented] at hblock
  refine Grid.Block.prints hblock ?_ fun _ action _ => text_action_ne_empty action
  intro cell action haction
  obtain ⟨hrow, hcolumn⟩ := ShiftReduce.Parser.range_of_action? h haction
  exact ⟨List.mem_range.mpr hrow, mem_lookaheadColumns.mpr hcolumn⟩

theorem slr1Grid_prints_gotos {parser : ShiftReduce.Parser}
    (h : (Analysis.ofGrammar grammar).slr1 = .ok parser) :
    (slr1Grid parser).Prints parser.table.gotos toString
      (List.range parser.automaton.states.length) toString grammar.nonterminals.toList
      (2 + (lookaheadColumns grammar).length) := by
  have hgrammar : parser.automaton.grammar = grammar.augmented := by
    rw [ShiftReduce.Parser.automaton_eq h]
    rfl
  have hblock := slr1Grid_gotos parser
  rw [hgrammar, lookaheadColumns_augmented, gotoColumns_augmented] at hblock
  refine Grid.Block.prints hblock ?_ fun _ target _ => toString_ne_empty target
  intro cell target htarget
  obtain ⟨hrow, hcolumn⟩ := ShiftReduce.Parser.range_of_goto? h htarget
  exact ⟨List.mem_range.mpr hrow, hcolumn⟩

/-- A predictive table is printed with a row for each nonterminal and a column for each terminal and
the end marker.  A shift-reduce table is printed with a row for each state, and columns for the
actions before each terminal and the end marker and for the gotos over each nonterminal.  There are no
other columns, and no entry is lost. -/
theorem tables_printed (grammar : Grammar) :
    (∀ parser, (Analysis.ofGrammar grammar).ll1 = .ok parser →
      (ll1Grid parser).Prints parser.table.entries (ruleText grammar) grammar.nonterminals.toList
        Symbol.text (lookaheadColumns grammar) 1 ∧
      (∀ row ∈ (ll1Grid parser).rows, row.length = 1 + (lookaheadColumns grammar).length) ∧
      ∀ nonterminal lookahead rule, parser.table.rule? nonterminal lookahead = some rule →
        ∃ production, grammar.production? rule = some production ∧
          parser.predict? nonterminal lookahead = some production ∧
          ruleText grammar rule = production.text) ∧
    ∀ parser, (Analysis.ofGrammar grammar).slr1 = .ok parser →
      (slr1Grid parser).Prints parser.table.actions ShiftReduce.Action.text
        (List.range parser.automaton.states.length) toString (lookaheadColumns grammar) 2 ∧
      (slr1Grid parser).Prints parser.table.gotos toString
        (List.range parser.automaton.states.length) toString grammar.nonterminals.toList
        (2 + (lookaheadColumns grammar).length) ∧
      ∀ row ∈ (slr1Grid parser).rows, row.length =
        2 + (lookaheadColumns grammar).length + grammar.nonterminals.toList.length := by
  constructor
  · intro parser h
    have hgrammar : parser.grammar = grammar := (Predictive.Parser.exists_table_of_ofSets h).1
    refine ⟨ll1Grid_prints h, fun row hrow => ?_, fun nonterminal lookahead rule hrule => ?_⟩
    · rw [← hgrammar]
      exact length_of_mem_ll1Grid hrow
    · obtain ⟨production, hproduction, _⟩ := (Predictive.Parser.rule?_eq_some_iff h).mp hrule
      refine ⟨production, hproduction, Predictive.Parser.predict?_of_rule? h hproduction hrule, ?_⟩
      rw [ruleText, hproduction, Option.elim_some]
  · intro parser h
    refine ⟨slr1Grid_prints_actions h, slr1Grid_prints_gotos h, fun row hrow => ?_⟩
    rw [← lookaheadColumns_augmented, ← gotoColumns_augmented]
    have hlength := length_of_mem_slr1Grid hrow
    rwa [ShiftReduce.Parser.automaton_eq h] at hlength

/-- Pairs of parentheses, one inside the other. -/
def nested : Grammar where
  start := .nonterminal "S"
  productions := [
    ⟨.nonterminal "S", [.terminal "(", .nonterminal "S", .terminal ")"]⟩,
    ⟨.nonterminal "S", [.epsilon]⟩]
  wellFormed := Grammar.wellFormed_of_fault?_eq_none (by decide)

/-- Both tables of `nested` are printed.  The prediction for `S` before the end marker stands in the
first row and the third column, and state 3 shifts the second parenthesis. -/
theorem tables_printed_nested :
    (∃ parser, (Analysis.ofGrammar nested).ll1 = .ok parser ∧
      parser.table.rule? (.nonterminal "S") .endMarker = some 1 ∧
      (ll1Grid parser).cell? (1, 3) = some "S → ε") ∧
    ∃ parser, (Analysis.ofGrammar nested).slr1 = .ok parser ∧
      parser.table.action? 3 (.terminal ")") = some (.shift 4) ∧
      (slr1Grid parser).cell? (4, 3) = some "s4" ∧
      (slr1Grid parser).Prints parser.table.gotos toString
        (List.range parser.automaton.states.length) toString nested.nonterminals.toList
        (2 + (lookaheadColumns nested).length) := by
  obtain ⟨hll1, hslr1⟩ := tables_printed nested
  constructor
  · obtain ⟨parser, hparser, hrule⟩ := exists_ok_of_toOption_map
      (show (Analysis.ofGrammar nested).ll1.toOption.map (·.table.rule? (.nonterminal "S")
        .endMarker) = some (some 1) by decide +kernel)
    obtain ⟨hprints, _, _⟩ := hll1 parser hparser
    exact ⟨parser, hparser, hrule, hprints.shows ⟨.nonterminal "S", .endMarker⟩ 1 hrule⟩
  · obtain ⟨parser, hparser, hfound⟩ := exists_ok_of_toOption_map
      (show (Analysis.ofGrammar nested).slr1.toOption.map (fun parser =>
        (parser.table.action? 3 (.terminal ")"), parser.automaton.states.length)) =
          some (some (.shift 4), 5) by decide +kernel)
    obtain ⟨haction, hlength⟩ := Prod.mk.inj hfound
    obtain ⟨hactions, hgotos, _⟩ := hslr1 parser hparser
    have hshown := hactions.shows ⟨3, .terminal ")"⟩ (.shift 4) haction
    rw [hlength] at hshown
    exact ⟨parser, hparser, haction, hshown, hgotos⟩

end TableParsing.Report
