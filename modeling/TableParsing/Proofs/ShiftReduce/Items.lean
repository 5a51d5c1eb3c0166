import Mathlib.Tactic.ByContra
import TableParsing.Proofs.Derivation
import TableParsing.ShiftReduce.Item

/-!
# Items and their closures

The dot of an item divides the body of its rule into what stands before it and
what stands behind it.  A closure holds the items that it was asked for
(`mem_closure`), it is closed under prediction (`closed_closure`), and it holds
nothing else: whatever holds of the given items and passes from an item to those
that it predicts holds of the whole closure (`closure_induct`).
-/

namespace TableParsing.ShiftReduce

variable {grammar : Grammar}

namespace Item

/-- The symbols before the dot. -/
def before (grammar : Grammar) (item : Item) : List Symbol :=
  (grammar.body item.rule).take item.dot

/-- The symbols behind the dot. -/
def behind (grammar : Grammar) (item : Item) : List Symbol :=
  (grammar.body item.rule).drop item.dot

@[simp] theorem behind_initial (rule : Nat) :
    (initial rule).behind grammar = grammar.body rule := rfl

theorem before_append_behind (item : Item) :
    item.before grammar ++ item.behind grammar = grammar.body item.rule :=
  List.take_append_drop ..

theorem mem_body_of_mem_behind {item : Item} {symbol : Symbol}
    (h : symbol ∈ item.behind grammar) : symbol ∈ grammar.body item.rule :=
  List.mem_of_mem_drop h

theorem mem_body_of_next? {item : Item} {symbol : Symbol} (h : item.next? grammar = some symbol) :
    symbol ∈ grammar.body item.rule :=
  List.mem_of_getElem? h

theorem next?_eq_head? (item : Item) : item.next? grammar = (item.behind grammar).head? := by
  rw [next?, behind, List.head?_drop]

/-- The symbol behind the dot is the first one of those behind it. -/
theorem behind_of_next? {item : Item} {symbol : Symbol} (h : item.next? grammar = some symbol) :
    item.behind grammar = symbol :: item.advanced.behind grammar := by
  obtain ⟨hlt, hget⟩ := List.getElem?_eq_some_iff.mp h
  rw [behind, List.drop_eq_getElem_cons hlt, hget]
  rfl

theorem next?_of_behind {item : Item} {symbol : Symbol} {rest : List Symbol}
    (h : item.behind grammar = symbol :: rest) : item.next? grammar = some symbol := by
  rw [next?_eq_head?, h, List.head?_cons]

theorem behind_advanced {item : Item} {symbol : Symbol} {rest : List Symbol}
    (h : item.behind grammar = symbol :: rest) : item.advanced.behind grammar = rest := by
  rw [behind_of_next? (next?_of_behind h)] at h
  exact (List.cons.inj h).2

/-- Moving the dot puts the symbol behind it before it. -/
theorem before_advanced {item : Item} {symbol : Symbol} (h : item.next? grammar = some symbol) :
    item.advanced.before grammar = item.before grammar ++ [symbol] := by
  show (grammar.body item.rule).take (item.dot + 1) = _
  have hsymbol : (grammar.body item.rule)[item.dot]? = some symbol := h
  rw [List.take_add_one, hsymbol]
  rfl

theorem behind_eq_nil {item : Item} (h : item.next? grammar = none) :
    item.behind grammar = [] := by
  rwa [next?_eq_head?, List.head?_eq_none_iff] at h

theorem next?_of_isComplete {item : Item} (h : item.isComplete grammar = true) :
    item.next? grammar = none := by
  have hdot : item.dot = (grammar.body item.rule).length := by simpa [Item.isComplete] using h
  exact List.getElem?_eq_none_iff.mpr (Nat.le_of_eq hdot.symm)

theorem before_of_next?_eq_none {item : Item} (h : item.next? grammar = none) :
    item.before grammar = grammar.body item.rule := by
  have hbody : item.before grammar ++ item.behind grammar = grammar.body item.rule :=
    item.before_append_behind
  rwa [behind_eq_nil h, List.append_nil] at hbody

end Item

namespace ItemSet

/-! ## Closure -/

theorem mem_predicted {items : ItemSet} {item : Item} :
    item ∈ predicted grammar items ↔
      ∃ predicting ∈ items, ∃ symbol, predicting.next? grammar = some symbol ∧
        ∃ rule ∈ grammar.rulesFor symbol, item = .initial rule := by
  simp only [predicted, List.mem_flatMap, SortedSet.mem_toList]
  constructor
  · rintro ⟨predicting, hpredicting, hitem⟩
    split at hitem
    · rename_i symbol hnext
      obtain ⟨rule, hrule, rfl⟩ := List.mem_map.mp hitem
      exact ⟨predicting, hpredicting, symbol, hnext, rule, hrule, rfl⟩
    · cases hitem
  · rintro ⟨predicting, hpredicting, symbol, hnext, rule, hrule, rfl⟩
    refine ⟨predicting, hpredicting, ?_⟩
    rw [hnext]
    exact List.mem_map_of_mem hrule

theorem mem_predict {items : ItemSet} {item : Item} :
    item ∈ predict grammar items ↔ item ∈ items ∨ item ∈ predicted grammar items := by
  rw [predict, SortedSet.mem_union, SortedSet.mem_ofList]

/-- Whether a set holds everything that its items predict. -/
def Closed (grammar : Grammar) (items : ItemSet) : Prop :=
  ∀ item ∈ items, ∀ symbol, item.next? grammar = some symbol →
    ∀ rule ∈ grammar.rulesFor symbol, Item.initial rule ∈ items

theorem mem_closure {items : List Item} {item : Item} (h : item ∈ items) :
    item ∈ closure grammar items :=
  (growth grammar).saturated_induct (motive := fun grown => item ∈ grown) _
    (SortedSet.mem_ofList.mpr h) fun _ hgrown => mem_predict.mpr (.inl hgrown)

theorem closure_congr {items items' : List Item} (h : ∀ item, item ∈ items ↔ item ∈ items') :
    closure grammar items = closure grammar items' := by
  have hsame : SortedSet.ofList items = SortedSet.ofList items' := by
    apply SortedSet.ext_mem
    intro item
    rw [SortedSet.mem_ofList, SortedSet.mem_ofList, h]
  rw [closure, closure, hsame]

theorem closed_closure (items : List Item) : Closed grammar (closure grammar items) := by
  obtain ⟨last, hvalue, hsize⟩ := (growth grammar).exists_last_pass (.ofList items)
  intro item hitem symbol hnext rule hrule
  rw [closure, hvalue] at hitem ⊢
  -- the last pass left its set as it was, so that its items are those that it predicted from
  have hback : item ∈ last := by
    by_contra hnew
    exact hsize (SortedSet.size_lt_of_subset (fun _ h => mem_predict.mpr (.inl h)) hitem hnew)
  exact mem_predict.mpr (.inr (mem_predicted.mpr ⟨item, hback, symbol, hnext, rule, hrule, rfl⟩))

/-- What holds of the given items, and passes from an item to those that it predicts, holds of the
closure. -/
theorem closure_induct {items : List Item} {motive : Item → Prop}
    (given : ∀ item ∈ items, motive item)
    (predicted : ∀ item symbol rule, motive item → item.next? grammar = some symbol →
      rule ∈ grammar.rulesFor symbol → motive (.initial rule)) :
    ∀ item ∈ closure grammar items, motive item := by
  apply (growth grammar).saturated_induct (motive := fun grown => ∀ item ∈ grown, motive item)
  · exact fun item hitem => given item (SortedSet.mem_ofList.mp hitem)
  · intro grown hgrown item hitem
    rcases mem_predict.mp hitem with hold | hnew
    · exact hgrown item hold
    · obtain ⟨predicting, hpredicting, symbol, hnext, rule, hrule, rfl⟩ := mem_predicted.mp hnew
      exact predicted predicting symbol rule (hgrown predicting hpredicting) hnext hrule

/-- An item of a closure was given or is predicted by another item of the closure. -/
theorem mem_closure_cases {items : List Item} {item : Item} (h : item ∈ closure grammar items) :
    item ∈ items ∨ ∃ predicting ∈ closure grammar items, ∃ symbol,
      predicting.next? grammar = some symbol ∧
        ∃ rule ∈ grammar.rulesFor symbol, item = .initial rule := by
  have hboth : ∀ item ∈ closure grammar items, item ∈ closure grammar items ∧
      (item ∈ items ∨ ∃ predicting ∈ closure grammar items, ∃ symbol,
        predicting.next? grammar = some symbol ∧
          ∃ rule ∈ grammar.rulesFor symbol, item = .initial rule) := by
    apply closure_induct
    · exact fun item hitem => ⟨mem_closure hitem, .inl hitem⟩
    · intro item symbol rule hitem hnext hrule
      exact ⟨closed_closure items item hitem.1 symbol hnext rule hrule,
        .inr ⟨item, hitem.1, symbol, hnext, rule, hrule, rfl⟩⟩
  exact (hboth item h).2

/-! ## Moving the dot -/

theorem mem_nextSymbols {items : ItemSet} {symbol : Symbol} :
    symbol ∈ nextSymbols grammar items ↔ ∃ item ∈ items, item.next? grammar = some symbol := by
  simp only [nextSymbols, SortedSet.mem_ofList, List.mem_filterMap, SortedSet.mem_toList]

theorem mem_kernel {items : ItemSet} {symbol : Symbol} {item : Item} :
    item ∈ kernel grammar items symbol ↔
      ∃ moved ∈ items, moved.next? grammar = some symbol ∧ item = moved.advanced := by
  simp only [kernel, List.mem_map, List.mem_filter, SortedSet.mem_toList, beq_iff_eq]
  constructor
  · rintro ⟨moved, ⟨hmem, hnext⟩, rfl⟩
    exact ⟨moved, hmem, hnext, rfl⟩
  · rintro ⟨moved, hmem, hnext, rfl⟩
    exact ⟨moved, ⟨hmem, hnext⟩, rfl⟩

theorem advanced_mem_successor {items : ItemSet} {item : Item} (h : item ∈ items)
    {symbol : Symbol} (hnext : item.next? grammar = some symbol) :
    item.advanced ∈ successor grammar items symbol :=
  mem_closure (mem_kernel.mpr ⟨item, h, hnext, rfl⟩)

end ItemSet

end TableParsing.ShiftReduce
