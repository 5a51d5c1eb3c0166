import TableParsing.Saturation
import TableParsing.Sets.Family

/-!
# Systems of inclusions

FIRST and FOLLOW sets are the least families that satisfy a finite list of
inclusions: the set of some symbol includes what can be read off the family
itself.  A pass takes the inclusions from left to right and adds what each one
demands of the family as it is by then; passes are repeated until one adds
nothing.
-/

namespace TableParsing

/-- The demand that the set of `target` includes `source family`. -/
structure Inclusion where
  target : Symbol
  source : SymbolFamily → SymbolSet

namespace Inclusion

/-- Adds what one inclusion demands. -/
def enforce (family : SymbolFamily) (inclusion : Inclusion) : SymbolFamily :=
  family.add inclusion.target (inclusion.source family)

/-- Enforces inclusions one after the other. -/
def pass (inclusions : List Inclusion) (family : SymbolFamily) : SymbolFamily :=
  inclusions.foldl enforce family

/-- The symbols whose sets are constrained. -/
def targets (inclusions : List Inclusion) : SymbolSet := .ofList (inclusions.map (·.target))

/-- An inclusion never introduces a symbol from outside the family and `alphabet`. -/
def Within (alphabet : SymbolSet) (inclusion : Inclusion) : Prop :=
  ∀ family, ∀ member ∈ inclusion.source family, member ∈ family.members ∪ alphabet

theorem keys_pass {inclusions : List Inclusion} {family : SymbolFamily} {symbol : Symbol}
    (h : symbol ∈ (pass inclusions family).keys) :
    symbol ∈ family.keys ∪ targets inclusions := by
  induction inclusions generalizing family with
  | nil => exact SortedSet.mem_union.mpr (.inl h)
  | cons inclusion rest ih =>
    have := ih h
    simp only [SortedSet.mem_union, enforce, SymbolFamily.mem_keys_add, targets,
      SortedSet.mem_ofList, List.map_cons, List.mem_cons] at this ⊢
    grind

theorem members_pass {alphabet : SymbolSet} {inclusions : List Inclusion} {family : SymbolFamily}
    {member : Symbol} (within : ∀ inclusion ∈ inclusions, inclusion.Within alphabet)
    (h : member ∈ (pass inclusions family).members) : member ∈ family.members ∪ alphabet := by
  induction inclusions generalizing family with
  | nil => exact SortedSet.mem_union.mpr (.inl h)
  | cons inclusion rest ih =>
    have later := ih (fun other hother => within other (List.mem_cons_of_mem _ hother)) h
    have first := within inclusion List.mem_cons_self family
    simp only [SortedSet.mem_union, enforce, SymbolFamily.mem_members_add] at later first ⊢
    grind

/-- Repeated passes over inclusions that stay within an alphabet. -/
def growth (alphabet : SymbolSet) (inclusions : List Inclusion)
    (within : ∀ inclusion ∈ inclusions, inclusion.Within alphabet) : Growth SymbolFamily where
  pass := pass inclusions
  size := SymbolFamily.cardinality
  room := SymbolFamily.room (targets inclusions) alphabet
  room_lt _ := SymbolFamily.room_lt (fun _ => keys_pass) (fun _ => members_pass within)

end Inclusion

end TableParsing
