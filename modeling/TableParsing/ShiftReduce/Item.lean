import TableParsing.Grammar.Augmented
import TableParsing.Saturation

/-!
# Items and sets of items

An LR(0) item is a production with a dot somewhere in its body.  The closure of
a list of items is the least set that holds them and, with every item that has a
nonterminal behind its dot, the items at the beginning of that nonterminal's
productions.  Moving the dot of every item that has a given symbol behind it,
and closing the result, leads from one set of items to the next.
-/

namespace TableParsing.ShiftReduce

open Std

/-- A rule number with the place of a dot in the rule's body. -/
structure Item where
  rule : Nat
  dot : Nat
deriving DecidableEq, Repr

namespace Item

instance : Ord Item := ⟨compareLex (compareOn rule) (compareOn dot)⟩

instance : TransOrd Item :=
  inferInstanceAs (TransCmp (compareLex (compareOn rule) (compareOn dot)))

instance : LawfulEqOrd Item where
  eq_of_compare {first second} h := by
    have both : compare first.rule second.rule = .eq ∧ compare first.dot second.dot = .eq :=
      compareLex_eq_eq.mp h
    cases first; cases second
    simp only [mk.injEq]
    exact ⟨LawfulEqOrd.eq_of_compare both.1, LawfulEqOrd.eq_of_compare both.2⟩

/-- The item at the beginning of a rule. -/
def initial (rule : Nat) : Item := ⟨rule, 0⟩

/-- The item with its dot moved by one symbol. -/
def advanced (item : Item) : Item := ⟨item.rule, item.dot + 1⟩

/-- The symbol behind the dot. -/
def next? (grammar : Grammar) (item : Item) : Option Symbol := (grammar.body item.rule)[item.dot]?

/-- Whether the dot stands at the end of the body. -/
def isComplete (grammar : Grammar) (item : Item) : Bool :=
  item.dot == (grammar.body item.rule).length

/-- Whether the item's rule is a production of the grammar. -/
def inRange (grammar : Grammar) (item : Item) : Bool :=
  decide (item.rule < grammar.productions.length)

/-- The left-hand side, an arrow, and the body with a bullet at the dot. -/
def text (grammar : Grammar) (item : Item) : String :=
  let body := grammar.body item.rule
  let lhs := (grammar.production? item.rule).elim "" fun production => production.lhs.text
  let place (index : Nat) : String :=
    (if index = item.dot then " •" else "") ++
      body[index]?.elim "" fun symbol => " " ++ symbol.text
  lhs ++ " →" ++ String.join ((List.range (body.length + 1)).map place)

end Item

/-- A set of items: a state of the automaton. -/
abbrev ItemSet := SortedSet Item

namespace ItemSet

/-! ## Closure -/

/-- The initial items of the nonterminals behind the dots of a set of items. -/
def predicted (grammar : Grammar) (items : ItemSet) : List Item :=
  items.toList.flatMap fun item =>
    match item.next? grammar with
    | some symbol => (grammar.rulesFor symbol).map Item.initial
    | none => []

/-- A set of items with everything that its items predict. -/
def predict (grammar : Grammar) (items : ItemSet) : ItemSet := items ∪ .ofList (predicted grammar items)

/-- The number of rules whose initial item is not in a set of items. -/
def missing (grammar : Grammar) (items : ItemSet) : Nat :=
  (List.range grammar.productions.length).countP fun rule => decide (Item.initial rule ∉ items)

theorem exists_rule_of_mem_predicted {grammar : Grammar} {items : ItemSet} {item : Item}
    (h : item ∈ predicted grammar items) :
    ∃ rule < grammar.productions.length, item = .initial rule := by
  obtain ⟨predicting, _, hitem⟩ := List.mem_flatMap.mp h
  split at hitem
  · obtain ⟨rule, hrule, rfl⟩ := List.mem_map.mp hitem
    exact ⟨rule, grammar.lt_of_mem_rulesFor hrule, rfl⟩
  · cases hitem

/-- Where a weaker test also counts some member that the stronger one leaves out, it counts more. -/
theorem countP_lt_of_mem {rules : List Nat} {weak strong : Nat → Bool} {rule : Nat}
    (implies : ∀ rule, strong rule = true → weak rule = true) (h : rule ∈ rules)
    (counted : weak rule = true) (left : strong rule = false) :
    rules.countP strong < rules.countP weak := by
  induction rules with
  | nil => cases h
  | cons other rest ih =>
    have fewer : rest.countP strong ≤ rest.countP weak :=
      List.countP_mono_left fun other _ => implies other
    rcases List.mem_cons.mp h with rfl | h
    · simp only [List.countP_cons, counted, left, if_true]
      simp
      omega
    · have step : (if strong other = true then 1 else 0) ≤ if weak other = true then 1 else 0 := by
        have := implies other
        split <;> simp_all
      rw [List.countP_cons, List.countP_cons]
      exact Nat.add_lt_add_of_lt_of_le (ih h) step

theorem missing_lt {grammar : Grammar} {items : ItemSet}
    (h : items.size < (predict grammar items).size) :
    missing grammar (predict grammar items) < missing grammar items := by
  have isNew : ∃ item ∈ predict grammar items, item ∉ items := by
    refine Classical.byContradiction fun none => Nat.not_le.mpr h ?_
    refine SortedSet.size_le_of_subset fun item hitem => ?_
    exact Classical.byContradiction fun absent => none ⟨item, hitem, absent⟩
  obtain ⟨item, hitem, absent⟩ := isNew
  have origin : item ∈ predicted grammar items := by
    rcases SortedSet.mem_union.mp hitem with hold | hnew
    · exact absurd hold absent
    · exact SortedSet.mem_ofList.mp hnew
  obtain ⟨rule, hrule, rfl⟩ := exists_rule_of_mem_predicted origin
  refine countP_lt_of_mem (fun other hother => ?_) (List.mem_range.mpr hrule)
    (by simpa using absent) (by simpa using hitem)
  simp only [decide_eq_true_eq] at hother ⊢
  exact fun hold => hother (SortedSet.mem_union.mpr (.inl hold))

/-- Repeated prediction. -/
def growth (grammar : Grammar) : Growth ItemSet where
  pass := predict grammar
  size := SortedSet.size
  room := missing grammar
  room_lt _ := missing_lt

/-- The least set that holds the given items and all that its items predict. -/
def closure (grammar : Grammar) (items : List Item) : ItemSet :=
  ((growth grammar).saturate (.ofList items)).value

/-! ## Moving the dot -/

/-- The symbols behind the dots. -/
def nextSymbols (grammar : Grammar) (items : ItemSet) : SortedSet Symbol :=
  .ofList (items.toList.filterMap (Item.next? grammar))

/-- The items that have a symbol behind their dot, with the dot moved over it. -/
def kernel (grammar : Grammar) (items : ItemSet) (symbol : Symbol) : List Item :=
  (items.toList.filter fun item => item.next? grammar == some symbol).map Item.advanced

/-- The closed set of items reached by moving the dot over a symbol. -/
def successor (grammar : Grammar) (items : ItemSet) (symbol : Symbol) : ItemSet :=
  closure grammar (kernel grammar items symbol)

/-- The set of items reached by moving the dot over a symbol, if it stands behind some dot. -/
def goto? (grammar : Grammar) (items : ItemSet) (symbol : Symbol) : Option ItemSet :=
  if (kernel grammar items symbol).isEmpty then none else some (successor grammar items symbol)

/-! ## Items of a grammar -/

/-- Whether all items of a set have a rule of the grammar and a dot within its body. -/
def Within (grammar : Grammar) (items : ItemSet) : Prop :=
  ∀ item ∈ items, item.rule < grammar.productions.length ∧
    item.dot ≤ (grammar.body item.rule).length

theorem within_predict {grammar : Grammar} {items : ItemSet} (h : Within grammar items) :
    Within grammar (predict grammar items) := by
  intro item hitem
  rcases SortedSet.mem_union.mp hitem with hitem | hitem
  · exact h item hitem
  · obtain ⟨rule, hrule, rfl⟩ := exists_rule_of_mem_predicted (SortedSet.mem_ofList.mp hitem)
    exact ⟨hrule, Nat.zero_le _⟩

theorem within_closure {grammar : Grammar} {items : List Item}
    (h : ∀ item ∈ items, item.rule < grammar.productions.length ∧
      item.dot ≤ (grammar.body item.rule).length) :
    Within grammar (closure grammar items) :=
  (growth grammar).saturated_induct (motive := Within grammar) _
    (fun item hitem => h item (SortedSet.mem_ofList.mp hitem)) fun _ => within_predict

theorem within_successor {grammar : Grammar} {items : ItemSet} (symbol : Symbol)
    (h : Within grammar items) : Within grammar (successor grammar items symbol) := by
  refine within_closure fun item hitem => ?_
  obtain ⟨moved, hmoved, rfl⟩ := List.mem_map.mp hitem
  obtain ⟨hmem, hnext⟩ := List.mem_filter.mp hmoved
  have inside : moved.next? grammar = some symbol := by simpa using hnext
  obtain ⟨bound, _⟩ := List.getElem?_eq_some_iff.mp inside
  exact ⟨(h moved hmem).1, bound⟩

end ItemSet

end TableParsing.ShiftReduce
