import TableParsing.Cell
import TableParsing.Log
import TableParsing.ShiftReduce.Item

/-!
# The LR(0) automaton

The states of the automaton are the sets of items that can be reached from the
closure of the augmented grammar's start item by moving dots over symbols.  They
are numbered in the order in which they are found: state by state, and within a
state by symbol.

The search ends because its states are pairwise different sets of items of the
grammar, of which there are finitely many; an `Exploration` carries both facts.
-/

namespace TableParsing.ShiftReduce

/-- The items of a grammar: every rule with every place of the dot in its body. -/
def itemsOf (grammar : Grammar) : List Item :=
  (List.range grammar.productions.length).flatMap fun rule =>
    (List.range ((grammar.body rule).length + 1)).map fun dot => ⟨rule, dot⟩

theorem mem_itemsOf {grammar : Grammar} {item : Item} :
    item ∈ itemsOf grammar ↔
      item.rule < grammar.productions.length ∧ item.dot ≤ (grammar.body item.rule).length := by
  obtain ⟨rule, dot⟩ := item
  simp only [itemsOf, List.mem_flatMap, List.mem_range, List.mem_map, Item.mk.injEq]
  constructor
  · rintro ⟨other, hrule, place, hplace, rfl, rfl⟩
    exact ⟨hrule, Nat.le_of_lt_succ hplace⟩
  · rintro ⟨hrule, hdot⟩
    exact ⟨rule, hrule, dot, Nat.lt_succ_of_le hdot, rfl, rfl⟩

/-! ## Finding the states -/

/-- The states found so far. -/
structure Exploration (grammar : Grammar) where
  states : List ItemSet
  distinct : states.Nodup
  within : ∀ state ∈ states, state.Within grammar

namespace Exploration

variable {grammar : Grammar}

/-- Distinct sets of items of a grammar are finite in number. -/
theorem length_le (exploration : Exploration grammar) :
    exploration.states.length ≤ Nat.pow 2 (itemsOf grammar).length :=
  SortedSet.length_le_two_pow exploration.distinct fun state hstate item hitem =>
    mem_itemsOf.mpr (exploration.within state hstate item hitem)

/-- Adds a state at the end, unless it is there. -/
def discover (exploration : Exploration grammar) (state : ItemSet) (h : state.Within grammar) :
    Exploration grammar :=
  if hnew : state ∈ exploration.states then exploration
  else
    { states := exploration.states ++ [state]
      distinct := by
        refine List.nodup_append.mpr ⟨exploration.distinct, by simp, ?_⟩
        rintro known hknown other hother rfl
        exact hnew (List.mem_singleton.mp hother ▸ hknown)
      within := fun other hother => by
        rcases List.mem_append.mp hother with hother | hother
        · exact exploration.within other hother
        · exact List.mem_singleton.mp hother ▸ h }

/-- Adds the states that one step leads to from a state. -/
def visit (exploration : Exploration grammar) (state : ItemSet) (h : state.Within grammar) :
    Exploration grammar :=
  (state.nextSymbols grammar).toList.foldl
    (fun found symbol =>
      found.discover (state.successor grammar symbol) (ItemSet.within_successor symbol h))
    exploration

/-- Visits the states from a number on, those found on the way included. -/
def exploreFrom (exploration : Exploration grammar) (number : Nat) : Exploration grammar :=
  if h : number < exploration.states.length then
    (exploration.visit exploration.states[number]
      (exploration.within _ (List.getElem_mem h))).exploreFrom (number + 1)
  else
    exploration
termination_by Nat.pow 2 (itemsOf grammar).length - number
decreasing_by
  have := exploration.length_le
  omega

/-- The exploration that knows only the start state. -/
def start (grammar : Grammar) (rule : Nat) (h : rule < grammar.productions.length) :
    Exploration grammar where
  states := [ItemSet.closure grammar [.initial rule]]
  distinct := by simp
  within state hstate := by
    rw [List.mem_singleton.mp hstate]
    refine ItemSet.within_closure fun item hitem => ?_
    rw [List.mem_singleton.mp hitem]
    exact ⟨h, Nat.zero_le _⟩

end Exploration

/-! ## The automaton -/

/-- The states of an augmented grammar with the transitions between them. -/
structure Automaton where
  /-- The augmented grammar. -/
  grammar : Grammar
  /-- The number of the production that was added to the grammar. -/
  startRule : Nat
  states : List ItemSet
  transitions : SortedMap (Cell Nat) Nat
deriving DecidableEq

namespace Automaton

def statesOf (grammar : Grammar) : List ItemSet :=
  ((Exploration.start grammar.augmented grammar.startRule
    (by simp [Grammar.augmented, Grammar.startRule])).exploreFrom 0).states

/-- The transitions between states: over each symbol behind a dot to the state that it leads to. -/
def transitionsOf (grammar : Grammar) (states : List ItemSet) : List (Cell Nat × Nat) :=
  states.zipIdx.flatMap fun (state, number) =>
    (state.nextSymbols grammar).toList.filterMap fun symbol =>
      (states.idxOf? (state.successor grammar symbol)).map fun target => (⟨number, symbol⟩, target)

def ofGrammar (grammar : Grammar) : Automaton where
  grammar := grammar.augmented
  startRule := grammar.startRule
  states := statesOf grammar
  transitions := .ofList (transitionsOf grammar.augmented (statesOf grammar))

/-- The state that a symbol leads to from a state. -/
def transition? (automaton : Automaton) (state : Nat) (symbol : Symbol) : Option Nat :=
  automaton.transitions.get? ⟨state, symbol⟩

def record (automaton : Automaton) : Log.Record where
  level := .debug
  text := "LR(0) automaton has " ++ toString automaton.states.length ++ " states and " ++
    toString automaton.transitions.size ++ " transitions"

end Automaton

end TableParsing.ShiftReduce
