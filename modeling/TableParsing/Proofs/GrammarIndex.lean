import Mathlib.Data.List.Induction
import TableParsing.Proofs.Derivation
import TableParsing.Proofs.FirstFault
import TableParsing.Proofs.Tables

/-!
# The index of a grammar

What is looked up about a grammar can be kept beside its productions: the sets of
nonterminals and of terminals, and the numbers of the productions of each
left-hand side.  `Index.build` fills such an index while it checks a grammar, in
three loops that stop at the first fault.

## Strategy

A loop that stops at the first fault is a search for that fault and, if there is
none, a fold over the whole list (`foldlM_refusing`).  The searches of
`Index.build` are those of `Grammar.fault?` (`Index.build_eq_refusing`).  What the
folds have collected after some productions is determined by these productions
(`Index.foldl_enterRule`), and in the end it is what the grammar looks up
(`Index.collect_productions`).  So an index is built exactly if the grammar is
made, and refused for the same fault (`map_index_check`).

With the faults of `Grammar.FirstFault` this says everything about the outcome of
the checks (`Grammar.check_exact`).
-/

namespace TableParsing

/-! ## Loops that stop at a fault -/

/-- A result, unless there is a fault. -/
def refusing {ε σ : Type} (fault? : Option ε) (result : σ) : Except ε σ :=
  match fault? with
  | some error => .error error
  | none => .ok result

/-- A loop that stops at the first fault searches for it, and goes on to the end if there is none. -/
private theorem foldlM_refusing {α ε σ : Type} (fault? : α → Option ε) (add : σ → α → σ) (members : List α)
    (state : σ) :
    members.foldlM (fun state member => refusing (fault? member) (add state member)) state =
      refusing (members.findSome? fault?) (members.foldl add state) := by
  induction members generalizing state with
  | nil => rfl
  | cons member rest ih =>
      rw [List.foldlM_cons, List.findSome?_cons, List.foldl_cons]
      cases fault? member with
      | some error => rfl
      | none => exact ih (add state member)

namespace Grammar

/-- What is looked up about a list of productions. -/
structure Index where
  nonterminals : SortedSet Symbol
  terminals : SortedSet Symbol
  /-- The numbers of the productions of each left-hand side. -/
  rules : SortedMap Symbol (List Nat)
deriving DecidableEq

namespace Index

/-- The numbers of the productions of a symbol; none if it is no left-hand side. -/
def rulesFor (index : Index) (symbol : Symbol) : List Nat := (index.rules.get? symbol).getD []

/-! ## Building an index -/

/-- Enters the left-hand side of a production, and the number of the production at the end of the
list of its left-hand side. -/
def enterRule (entered : SortedSet Symbol × SortedMap Symbol (List Nat))
    (numbered : Production × Nat) : SortedSet Symbol × SortedMap Symbol (List Nat) :=
  let lhs := numbered.1.lhs
  (entered.1.insert lhs, entered.2.insert lhs ((entered.2.get? lhs).getD [] ++ [numbered.2]))

/-- A nonterminal that is not among the left-hand sides is a fault. -/
def undefined? (nonterminals : SortedSet Symbol) (symbol : Symbol) : Option GrammarError :=
  if symbol.isNonterminal ∧ symbol ∉ nonterminals then some (.undefinedNonterminal symbol) else none

def enterTerminal (terminals : SortedSet Symbol) (symbol : Symbol) : SortedSet Symbol :=
  if symbol.isTerminal then terminals.insert symbol else terminals

/-- Checks a start symbol and productions and collects their index on the way, or names the first
fault that is met. -/
def build (start : Symbol) (productions : List Production) : Except GrammarError Index :=
  if !start.isNonterminal then .error (.invalidStart start)
  else if productions.isEmpty then .error .noProductions
  else do
    let (nonterminals, rules) ← productions.zipIdx.foldlM
      (fun entered numbered => refusing numbered.1.fault? (enterRule entered numbered)) (∅, ∅)
    if start ∉ nonterminals then .error (.missingStartRule start)
    else do
      let terminals ← (productions.flatMap (·.rhs)).foldlM
        (fun terminals symbol =>
          refusing (undefined? nonterminals symbol) (enterTerminal terminals symbol)) ∅
      return ⟨nonterminals, terminals, rules⟩

end Index

/-- What a grammar looks up, as an index. -/
def index (grammar : Grammar) : Index where
  nonterminals := grammar.nonterminals
  terminals := grammar.terminals
  rules := .ofKeys grammar.nonterminals grammar.rulesFor

variable {grammar : Grammar}

/-! ## The rules of a symbol -/

theorem pairwise_rulesFor (grammar : Grammar) (symbol : Symbol) :
    (grammar.rulesFor symbol).Pairwise (· < ·) :=
  List.pairwise_map.mpr ((pairwise_zipIdx grammar.productions).filter _)

theorem rulesFor_eq_nil {symbol : Symbol} (h : symbol ∉ grammar.nonterminals) :
    grammar.rulesFor symbol = [] := by
  refine List.eq_nil_iff_forall_not_mem.mpr fun rule hrule => ?_
  obtain ⟨production, hproduction, hlhs⟩ := mem_rulesFor.mp hrule
  exact h (mem_nonterminals.mpr ⟨production, mem_of_production? hproduction, hlhs⟩)

theorem rulesFor_index (grammar : Grammar) (symbol : Symbol) :
    grammar.index.rulesFor symbol = grammar.rulesFor symbol := by
  rw [Index.rulesFor, index, SortedMap.get?_ofKeys]
  split
  · rfl
  · rename_i hnone
    exact (rulesFor_eq_nil hnone).symm

/-! ## What the loops collect -/

namespace Index

/-- The numbers of the productions of a symbol among numbered productions. -/
def rulesIn (numbered : List (Production × Nat)) (symbol : Symbol) : List Nat :=
  (numbered.filter fun (production, _) => production.lhs == symbol).map (·.2)

theorem rulesIn_snoc (numbered : List (Production × Nat)) (last : Production × Nat)
    (symbol : Symbol) : rulesIn (numbered ++ [last]) symbol =
      rulesIn numbered symbol ++ if symbol = last.1.lhs then [last.2] else [] := by
  rw [rulesIn, rulesIn, List.filter_append, List.map_append]
  by_cases h : symbol = last.1.lhs
  · simp [h]
  · simp [h, Ne.symm h]

private theorem rulesIn_eq_nil {numbered : List (Production × Nat)} {symbol : Symbol}
    (h : symbol ∉ numbered.map (·.1.lhs)) : rulesIn numbered symbol = [] := by
  rw [rulesIn, List.map_eq_nil_iff, List.filter_eq_nil_iff]
  intro pair hpair hlhs
  exact h (List.mem_map.mpr ⟨pair, hpair, by simpa using hlhs⟩)

/-- After some productions the first loop holds their left-hand sides, each with its rules. -/
private theorem foldl_enterRule (numbered : List (Production × Nat)) :
    numbered.foldl enterRule (∅, ∅) =
      (.ofList (numbered.map (·.1.lhs)),
        .ofKeys (.ofList (numbered.map (·.1.lhs))) (rulesIn numbered)) := by
  induction numbered using List.reverseRecOn with
  | nil => rfl
  | append_singleton seen last ih =>
      rw [List.foldl_append, ih, List.foldl_cons, List.foldl_nil, enterRule]
      refine Prod.ext (SortedSet.ext_mem fun symbol => ?_) (SortedMap.ext_get? fun symbol => ?_)
      · simp [or_comm]
      · simp only [SortedMap.get?_insert, SortedMap.get?_ofKeys, SortedSet.mem_ofList,
          rulesIn_snoc, List.map_append, List.map_cons, List.map_nil, List.mem_append,
          List.mem_singleton]
        by_cases hlast : symbol = last.1.lhs
        · -- the new rule comes behind those that were seen, if there are any
          by_cases hseen : last.1.lhs ∈ seen.map (·.1.lhs)
          · simp [hlast, hseen]
          · simp [hlast, hseen, rulesIn_eq_nil hseen]
        · grind

private theorem mem_foldl_enterTerminal {symbols : List Symbol} {terminals : SortedSet Symbol}
    {symbol : Symbol} : symbol ∈ symbols.foldl enterTerminal terminals ↔
      symbol ∈ terminals ∨ symbol.isTerminal = true ∧ symbol ∈ symbols := by
  induction symbols generalizing terminals with
  | nil => simp
  | cons other rest ih =>
      rw [List.foldl_cons, ih, enterTerminal]
      split
      · simp only [SortedSet.mem_insert, List.mem_cons]
        grind
      · simp only [List.mem_cons]
        grind

/-- What the loops collect if there is no fault. -/
def collect (productions : List Production) : Index :=
  let entered := productions.zipIdx.foldl enterRule (∅, ∅)
  ⟨entered.1, (productions.flatMap (·.rhs)).foldl enterTerminal ∅, entered.2⟩

private theorem foldl_enterRule_zipIdx (productions : List Production) :
    productions.zipIdx.foldl enterRule (∅, ∅) =
      (.ofList (productions.map (·.lhs)),
        .ofKeys (.ofList (productions.map (·.lhs))) (rulesIn productions.zipIdx)) := by
  have hlhs : productions.zipIdx.map (·.1.lhs) = productions.map (·.lhs) := by
    calc productions.zipIdx.map (·.1.lhs)
        = (productions.zipIdx.map (·.1)).map (·.lhs) := by rw [List.map_map]; rfl
      _ = productions.map (·.lhs) := by rw [List.zipIdx_map_fst]
  rw [foldl_enterRule, hlhs]

/-- The loops collect what the grammar with these productions looks up. -/
theorem collect_productions (grammar : Grammar) : collect grammar.productions = grammar.index := by
  have hterminals : (grammar.productions.flatMap (·.rhs)).foldl enterTerminal ∅ =
      grammar.terminals := by
    apply SortedSet.ext_mem
    intro symbol
    rw [mem_foldl_enterTerminal, mem_terminals]
    simp
  rw [collect, foldl_enterRule_zipIdx, hterminals]
  rfl

/-- The search of the third loop is the last one of the checks. -/
private theorem findSome?_undefined? {productions : List Production} {nonterminals : SortedSet Symbol}
    (h : ∀ symbol, symbol ∈ nonterminals ↔ isDefinedIn productions symbol = true)
    (symbols : List Symbol) :
    symbols.findSome? (undefined? nonterminals) =
      (symbols.find? fun symbol => symbol.isNonterminal && !isDefinedIn productions symbol).map
        .undefinedNonterminal := by
  induction symbols with
  | nil => rfl
  | cons symbol rest ih =>
      rw [List.findSome?_cons, List.find?_cons, undefined?, ih]
      simp only [h, Bool.not_eq_true]
      cases symbol.isNonterminal <;> cases isDefinedIn productions symbol <;> simp

/-- The three loops stop at the first fault, and collect everything if there is none. -/
theorem build_eq_refusing (start : Symbol) (productions : List Production) :
    build start productions = refusing (fault? start productions) (collect productions) := by
  have hfaulty : productions.zipIdx.findSome? (·.1.fault?) =
      productions.findSome? Production.fault? := by
    calc productions.zipIdx.findSome? (·.1.fault?)
        = (productions.zipIdx.map (·.1)).findSome? Production.fault? := by
          rw [List.findSome?_map]; rfl
      _ = productions.findSome? Production.fault? := by rw [List.zipIdx_map_fst]
  have hdefined (symbol : Symbol) : symbol ∈ (productions.zipIdx.foldl enterRule (∅, ∅)).1 ↔
      isDefinedIn productions symbol = true := by
    rw [foldl_enterRule_zipIdx, isDefinedIn_iff]
    simp
  unfold build fault?
  simp only [foldlM_refusing, hfaulty]
  split
  · rfl
  split
  · rfl
  cases productions.findSome? Production.fault? with
  | some error => rfl
  | none =>
      show (if start ∉ (productions.zipIdx.foldl enterRule (∅, ∅)).1 then _ else _) = _
      simp only [hdefined, findSome?_undefined? hdefined]
      by_cases hstart : isDefinedIn productions start = true
      · simp only [hstart]
        cases (productions.flatMap (·.rhs)).find? _ with
        | some symbol => rfl
        | none => rfl
      · simp only [hstart]
        rfl

end Index

/-- An index is built exactly if the grammar is made, with the same fault otherwise. -/
theorem map_index_check (start : Symbol) (productions : List Production) :
    (check start productions).map index = Index.build start productions := by
  have hbuild := Index.build_eq_refusing start productions
  cases hcheck : check start productions with
  | error error =>
      rw [check_eq_error_iff, ← fault?_eq_some_iff] at hcheck
      rw [hbuild, hcheck]
      rfl
  | ok grammar =>
      obtain ⟨rfl, rfl⟩ := check_eq_ok_iff.mp hcheck
      rw [hbuild, fault?_eq_none_iff.mpr grammar.wellFormed, Index.collect_productions]
      rfl

/-! ## What passes, and what is then known -/

/-- The conditions on a start symbol and productions to make a grammar. -/
structure Admissible (start : Symbol) (productions : List Production) : Prop where
  start_isNonterminal : start.isNonterminal = true
  ne_nil : productions ≠ []
  lhs_isNonterminal : ∀ production ∈ productions, production.lhs.isNonterminal = true
  rhs_ne_nil : ∀ production ∈ productions, production.rhs ≠ []
  endMarker_not_mem : ∀ production ∈ productions, .endMarker ∉ production.rhs
  classify_isTerminal : ∀ production ∈ productions, ∀ atom, .terminal atom ∈ production.rhs →
    (Symbol.classify atom).isTerminal = true
  epsilon_alone : ∀ production ∈ productions, .epsilon ∈ production.rhs →
    production.rhs = [.epsilon]
  start_defined : ∃ production ∈ productions, production.lhs = start
  nonterminals_defined : ∀ production ∈ productions, ∀ symbol ∈ production.rhs,
    symbol.isNonterminal = true → ∃ definition ∈ productions, definition.lhs = symbol

theorem admissible_iff {start : Symbol} {productions : List Production} :
    Admissible start productions ↔ WellFormed start productions := by
  constructor
  · intro h
    refine ⟨fun production hmem => ⟨h.lhs_isNonterminal _ hmem, h.rhs_ne_nil _ hmem,
      h.endMarker_not_mem _ hmem, fun symbol hsymbol => ?_, h.epsilon_alone _ hmem⟩,
      h.start_defined, h.nonterminals_defined⟩
    have hkinds := Production.forall_not_isReserved_iff.mpr (h.classify_isTerminal _ hmem)
    exact Bool.eq_false_iff.mpr (hkinds symbol hsymbol)
  · intro h
    obtain ⟨first, hfirst, hstart⟩ := h.start_defined
    constructor
    case start_isNonterminal => exact hstart ▸ (h.valid _ hfirst).lhs_isNonterminal
    case ne_nil => exact List.ne_nil_of_mem hfirst
    case lhs_isNonterminal => exact fun _ hmem => (h.valid _ hmem).lhs_isNonterminal
    case rhs_ne_nil => exact fun _ hmem => (h.valid _ hmem).rhs_ne_nil
    case endMarker_not_mem => exact fun _ hmem => (h.valid _ hmem).endMarker_not_mem
    case classify_isTerminal =>
      exact fun _ hmem => Production.forall_not_isReserved_iff.mp fun symbol hsymbol =>
        Bool.eq_false_iff.mp ((h.valid _ hmem).not_isReserved symbol hsymbol)
    case epsilon_alone => exact fun _ hmem => (h.valid _ hmem).epsilon_alone
    case start_defined => exact h.start_defined
    case nonterminals_defined => exact h.nonterminals_defined

/-- The sets of symbols and the lists of rules that belong to productions. -/
structure Describes (productions : List Production) (nonterminals terminals : SortedSet Symbol)
    (rulesFor : Symbol → List Nat) : Prop where
  mem_nonterminals : ∀ symbol, symbol ∈ nonterminals ↔
    ∃ production ∈ productions, production.lhs = symbol
  mem_terminals : ∀ symbol, symbol ∈ terminals ↔
    symbol.isTerminal = true ∧ ∃ production ∈ productions, symbol ∈ production.rhs
  /-- So no number is listed twice. -/
  rulesFor_increasing : ∀ symbol, (rulesFor symbol).Pairwise (· < ·)
  mem_rulesFor : ∀ symbol rule, rule ∈ rulesFor symbol ↔
    ∃ production, productions[rule]? = some production ∧ production.lhs = symbol

theorem describes (grammar : Grammar) :
    Describes grammar.productions grammar.nonterminals grammar.terminals grammar.rulesFor :=
  ⟨fun _ => mem_nonterminals, fun _ => mem_terminals, pairwise_rulesFor grammar,
    fun _ _ => mem_rulesFor⟩

/-- The checks let pass what is admissible; what is made keeps its productions and is described
exactly, also by the index that is filled on the way; and what is refused is refused for its first
fault. -/
theorem check_exact (start : Symbol) (productions : List Production) :
    ((∃ grammar, check start productions = .ok grammar) ↔ Admissible start productions) ∧
    (∀ grammar, check start productions = .ok grammar →
      grammar.start = start ∧ grammar.productions = productions ∧
      Describes productions grammar.nonterminals grammar.terminals grammar.rulesFor) ∧
    (∀ index, Index.build start productions = .ok index →
      Describes productions index.nonterminals index.terminals index.rulesFor) ∧
    Index.build start productions = (check start productions).map index ∧
    ∀ error, check start productions = .error error ↔ FirstFault start productions error := by
  refine ⟨?_, ?_, ?_, (map_index_check start productions).symm, fun error => check_eq_error_iff⟩
  · rw [admissible_iff]
    constructor
    · rintro ⟨grammar, hcheck⟩
      obtain ⟨rfl, rfl⟩ := check_eq_ok_iff.mp hcheck
      exact grammar.wellFormed
    · intro h
      obtain ⟨grammar, hcheck, -⟩ := exists_check h
      exact ⟨grammar, hcheck⟩
  · intro grammar hcheck
    obtain ⟨rfl, rfl⟩ := check_eq_ok_iff.mp hcheck
    exact ⟨rfl, rfl, grammar.describes⟩
  · intro index hbuild
    rw [← map_index_check] at hbuild
    cases hcheck : check start productions with
    | error error =>
        rw [hcheck] at hbuild
        cases hbuild
    | ok grammar =>
        rw [hcheck] at hbuild
        cases hbuild
        obtain ⟨rfl, rfl⟩ := check_eq_ok_iff.mp hcheck
        have hrules : grammar.index.rulesFor = grammar.rulesFor := funext (rulesFor_index grammar)
        rw [hrules]
        exact grammar.describes

/-- Productions of two nonterminals that take turns, one of them twice the same, with terminals of
no letter and of two. -/
def interleaved : List Production := [
  ⟨.nonterminal "S", [.terminal "", .nonterminal "S"]⟩,
  ⟨.nonterminal "B", [.epsilon]⟩,
  ⟨.nonterminal "S", [.terminal "if", .nonterminal "B"]⟩,
  ⟨.nonterminal "B", [.epsilon]⟩]

/-- `interleaved` makes a grammar with the rules 0 and 2 for `S` and 1 and 3 for `B`.  With a terminal
that is spelt like a nonterminal before an empty right-hand side, the terminal is reported. -/
theorem check_exact_interleaved :
    (∃ grammar, check defaultStart interleaved = .ok grammar ∧
      Describes interleaved grammar.nonterminals grammar.terminals grammar.rulesFor ∧
      grammar.rulesFor (.nonterminal "S") = [0, 2] ∧
      grammar.rulesFor (.nonterminal "B") = [1, 3]) ∧
    FirstFault defaultStart
      (interleaved ++ [⟨.nonterminal "S", [.terminal "a", .terminal "B"]⟩, ⟨.nonterminal "S", []⟩])
      (.reservedTerminal (.terminal "B")) := by
  constructor
  · obtain ⟨grammar, hcheck, hrules⟩ := exists_ok_of_toOption_map
      (show (check defaultStart interleaved).toOption.map (fun grammar =>
        (grammar.rulesFor (.nonterminal "S"), grammar.rulesFor (.nonterminal "B"))) =
          some ([0, 2], [1, 3]) by decide +kernel)
    obtain ⟨_, _, hdescribes⟩ := (check_exact defaultStart interleaved).2.1 grammar hcheck
    obtain ⟨hs, hb⟩ := Prod.mk.inj hrules
    exact ⟨grammar, hcheck, hdescribes, hs, hb⟩
  · exact ((check_exact _ _).2.2.2.2 _).mp (by decide +kernel)

end Grammar

end TableParsing
