import TableParsing.Symbol
import TableParsing.Sorted.Map

/-!
# Families of symbol sets

FIRST and FOLLOW are families: maps from symbols to sets of symbols.  Passes
over a grammar enlarge a family by adding sets to its members, creating the
entry of a symbol that has none.

A family whose keys and members stay within given sets cannot grow for ever;
`SymbolFamily.room` is what is left, and `SymbolFamily.room_lt` says that every
enlargement uses some of it.
-/

namespace TableParsing

abbrev SymbolSet := SortedSet Symbol

/-- A set of symbols for each of some symbols. -/
abbrev SymbolFamily := SortedMap Symbol SymbolSet

namespace SymbolFamily

/-- The set of a symbol; empty if the symbol has no entry. -/
def setOf (family : SymbolFamily) (symbol : Symbol) : SymbolSet :=
  (family.get? symbol).getD ∅

/-- The sum of the sizes of the sets. -/
def cardinality (family : SymbolFamily) : Nat :=
  family.toList.foldr (fun entry total => entry.2.size + total) 0

/-- Adds symbols to the set of a symbol. -/
def add (family : SymbolFamily) (symbol : Symbol) (additions : SymbolSet) : SymbolFamily :=
  family.insert symbol (setOf family symbol ∪ additions)

/-- The symbols that stand in any set. -/
def members (family : SymbolFamily) : SymbolSet :=
  .ofList (family.toList.flatMap fun entry => entry.2.toList)

theorem mem_setOf_add {family : SymbolFamily} {symbol other : Symbol} {additions : SymbolSet}
    {member : Symbol} :
    member ∈ setOf (add family symbol additions) other ↔
      member ∈ setOf family other ∨ other = symbol ∧ member ∈ additions := by
  unfold add setOf
  rw [SortedMap.get?_insert]
  split
  · rename_i same
    subst same
    simp
  · simp [*]

theorem mem_members {family : SymbolFamily} {member : Symbol} :
    member ∈ members family ↔ ∃ symbol, member ∈ setOf family symbol := by
  simp only [members, SortedSet.mem_ofList, List.mem_flatMap, SortedSet.mem_toList, Prod.exists,
    SortedMap.mem_toList_iff, setOf]
  constructor
  · rintro ⟨symbol, set, found, h⟩
    exact ⟨symbol, by simpa [found] using h⟩
  · rintro ⟨symbol, h⟩
    cases found : family.get? symbol with
    | none => simp [found] at h
    | some set => exact ⟨symbol, set, found, by simpa [found] using h⟩

theorem mem_keys_add {family : SymbolFamily} {symbol other : Symbol} {additions : SymbolSet} :
    other ∈ (add family symbol additions).keys ↔ other = symbol ∨ other ∈ family.keys := by
  simp only [SortedMap.mem_keys, add, SortedMap.get?_insert]
  by_cases same : other = symbol <;> simp [same]

theorem mem_members_add {family : SymbolFamily} {symbol member : Symbol} {additions : SymbolSet} :
    member ∈ members (add family symbol additions) ↔ member ∈ members family ∨ member ∈ additions := by
  simp only [mem_members, mem_setOf_add]
  constructor
  · rintro ⟨other, h | h⟩
    · exact .inl ⟨other, h⟩
    · exact .inr h.2
  · rintro (⟨other, h⟩ | h)
    · exact ⟨other, .inl h⟩
    · exact ⟨symbol, .inr ⟨rfl, h⟩⟩

/-! ## The room that is left -/

theorem cardinality_le {family : SymbolFamily} {alphabet : SymbolSet}
    (h : ∀ member ∈ members family, member ∈ alphabet) :
    cardinality family ≤ family.keys.size * alphabet.size := by
  have each : ∀ entry ∈ family.toList, entry.2.size ≤ alphabet.size := fun entry hentry =>
    SortedSet.size_le_of_subset fun member hmember =>
      h member (by
        simp only [members, SortedSet.mem_ofList, List.mem_flatMap]
        exact ⟨entry, hentry, hmember⟩)
  have sum : ∀ entries : List (Symbol × SymbolSet),
      (∀ entry ∈ entries, entry.2.size ≤ alphabet.size) →
        entries.foldr (fun entry total => entry.2.size + total) 0 ≤
          entries.length * alphabet.size := by
    intro entries bound
    induction entries with
    | nil => simp
    | cons entry rest ih =>
      have := bound entry List.mem_cons_self
      have := ih fun other hother => bound other (List.mem_cons_of_mem _ hother)
      simp only [List.foldr_cons, List.length_cons, Nat.succ_mul]
      omega
  have := sum family.toList each
  simpa [cardinality, SortedMap.keys, SortedSet.size] using this

/-- How many symbols the sets of a family can still take up, if all keys come from the family or
from `symbols` and all members from the family or from `alphabet`. -/
def room (symbols alphabet : SymbolSet) (family : SymbolFamily) : Nat :=
  (family.keys ∪ symbols).size * (members family ∪ alphabet).size - cardinality family

theorem room_lt {symbols alphabet : SymbolSet} {family grown : SymbolFamily}
    (keys : ∀ symbol ∈ grown.keys, symbol ∈ family.keys ∪ symbols)
    (values : ∀ member ∈ members grown, member ∈ members family ∪ alphabet)
    (h : cardinality family < cardinality grown) :
    room symbols alphabet grown < room symbols alphabet family := by
  have fewerKeys : (grown.keys ∪ symbols).size ≤ (family.keys ∪ symbols).size :=
    SortedSet.size_le_of_subset fun symbol hsymbol => by
      rcases SortedSet.mem_union.mp hsymbol with hsymbol | hsymbol
      · exact keys symbol hsymbol
      · exact SortedSet.mem_union.mpr (.inr hsymbol)
  have fewerMembers : (members grown ∪ alphabet).size ≤ (members family ∪ alphabet).size :=
    SortedSet.size_le_of_subset fun member hmember => by
      rcases SortedSet.mem_union.mp hmember with hmember | hmember
      · exact values member hmember
      · exact SortedSet.mem_union.mpr (.inr hmember)
  have ownKeys : grown.keys.size ≤ (grown.keys ∪ symbols).size :=
    SortedSet.size_le_of_subset fun symbol hsymbol => SortedSet.mem_union.mpr (.inl hsymbol)
  have within : cardinality grown ≤ grown.keys.size * (members grown ∪ alphabet).size :=
    cardinality_le fun member hmember => SortedSet.mem_union.mpr (.inl hmember)
  have := Nat.mul_le_mul ownKeys (Nat.le_refl (members grown ∪ alphabet).size)
  have := Nat.mul_le_mul fewerKeys fewerMembers
  unfold room
  omega

end SymbolFamily

end TableParsing
