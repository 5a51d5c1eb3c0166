import Mathlib.Order.Bounds.Basic
import TableParsing.Proofs.Sets.Adjacency

/-!
# Saturation leads to least families

The passes over a system of monotone inclusions lead to the least family that
includes the one they started from and satisfies the inclusions, whatever family
that was: a pass never goes beyond a family that includes the present one and
satisfies them all (`Inclusion.pass_le_of_satisfies`), and the families to which a
pass adds nothing do satisfy them (`Inclusion.satisfies_iff_pass_le`).  The least
family does not depend on the order of the inclusions, though the families on the
way do.

FIRST sets can be saturated with grammars that they were not computed from, so any
sets are a start, and a pass may give a symbol its first entry.  FOLLOW sets start
from the end marker behind the start symbol and can be computed with any FIRST sets.
-/

namespace TableParsing

namespace Inclusion

open SymbolFamily

variable {inclusions : List Inclusion} {start family other : SymbolFamily}

/-! ## Passes over inclusions -/

/-- A family satisfies inclusions. -/
def Satisfies (inclusions : List Inclusion) (family : SymbolFamily) : Prop :=
  ∀ inclusion ∈ inclusions, ∀ member ∈ inclusion.source family,
    member ∈ setOf family inclusion.target

theorem le_iterate (inclusions : List Inclusion) (start : SymbolFamily) (passes : Nat) :
    start ≤ (pass inclusions)^[passes] start := by
  induction passes with
  | zero => exact le_refl start
  | succ passes ih =>
      rw [Function.iterate_succ_apply']
      exact ih.trans (below_pass inclusions _)

/-- The sizes tell whether a pass adds nothing. -/
theorem pass_le_iff : pass inclusions family ≤ family ↔
    cardinality (pass inclusions family) ≤ cardinality family :=
  ⟨cardinality_le_of_below, fun hsize =>
    below_of_not_cardinality_lt (below_pass inclusions family) (Nat.not_lt.mpr hsize)⟩

section Monotone

variable (hmono : ∀ inclusion ∈ inclusions, inclusion.Monotone)
include hmono

/-- A pass stays within a family that satisfies the inclusions. -/
theorem pass_le_of_satisfies (h : family ≤ other) (hother : Satisfies inclusions other) :
    pass inclusions family ≤ other := by
  show ContainedIn (fun symbol member => member ∈ setOf other symbol) (pass inclusions family)
  refine containedIn_pass (fun inclusion hinclusion current hcurrent member hmember => ?_) h
  exact hother inclusion hinclusion member (hmono inclusion hinclusion current other hcurrent member
    hmember)

theorem iterate_le_of_satisfies (h : start ≤ other) (hother : Satisfies inclusions other)
    (passes : Nat) : (pass inclusions)^[passes] start ≤ other := by
  induction passes with
  | zero => exact h
  | succ passes ih =>
      rw [Function.iterate_succ_apply']
      exact pass_le_of_satisfies hmono ih hother

/-- The families that satisfy the inclusions are those to which a pass adds nothing. -/
theorem satisfies_iff_pass_le : Satisfies inclusions family ↔ pass inclusions family ≤ family := by
  refine ⟨pass_le_of_satisfies hmono (le_refl family), fun h inclusion hinclusion member hin => ?_⟩
  exact h _ member (source_subset_pass hinclusion (hmono inclusion hinclusion) hin)

theorem satisfies_pass (h : Satisfies inclusions family) :
    Satisfies inclusions (pass inclusions family) := by
  have hback : pass inclusions family ≤ family := pass_le_of_satisfies hmono (le_refl family) h
  intro inclusion hinclusion member hmember
  apply below_pass inclusions family
  exact h inclusion hinclusion member (hmono inclusion hinclusion _ _ hback member hmember)

theorem satisfies_iterate {passes later : Nat} (hlater : passes ≤ later)
    (h : Satisfies inclusions ((pass inclusions)^[passes] start)) :
    Satisfies inclusions ((pass inclusions)^[later] start) := by
  induction later, hlater using Nat.le_induction with
  | base => exact h
  | succ later _ ih =>
      rw [Function.iterate_succ_apply']
      exact satisfies_pass hmono ih

/-- Where the passes satisfy the inclusions, they have led to the least family that does so and
includes the start. -/
theorem isLeast_iterate {passes : Nat}
    (h : Satisfies inclusions ((pass inclusions)^[passes] start)) :
    IsLeast {family | start ≤ family ∧ Satisfies inclusions family}
      ((pass inclusions)^[passes] start) :=
  ⟨⟨le_iterate inclusions start passes, h⟩, fun _ hfamily =>
    iterate_le_of_satisfies hmono hfamily.1 hfamily.2 passes⟩

/-- Saturation ends with a family that satisfies the inclusions. -/
theorem exists_satisfies_iterate {final : Saturated SymbolFamily}
    (h : Saturates (pass inclusions) cardinality start final) :
    ∃ passes, final.value = (pass inclusions)^[passes] start ∧
      Satisfies inclusions ((pass inclusions)^[passes] start) := by
  obtain ⟨count, hvalue, hsize⟩ := h.exists_iterate
  refine ⟨count + 1, hvalue, satisfies_iterate hmono (Nat.le_succ count) ?_⟩
  rw [Function.iterate_succ_apply'] at hsize
  rw [satisfies_iff_pass_le hmono, pass_le_iff]
  exact hsize.le

end Monotone

end Inclusion

theorem SymbolFamily.setOf_eq_of_isLeast {families : Set SymbolFamily} {first second : SymbolFamily}
    (hfirst : IsLeast families first) (hsecond : IsLeast families second) (symbol : Symbol) :
    first.setOf symbol = second.setOf symbol :=
  SortedSet.ext_mem fun member =>
    ⟨hfirst.2 hsecond.1 symbol member, hsecond.2 hfirst.1 symbol member⟩

/-! ## FIRST sets -/

namespace FirstSets

variable {grammar grammar' : Grammar} {first : FirstSets} {passes : Nat}

/-- The families that include given sets and are closed under the productions of a grammar. -/
def closedAbove (grammar : Grammar) (first : FirstSets) : Set SymbolFamily :=
  {family | first.family ≤ family ∧ (⟨family⟩ : FirstSets).Closed grammar}

theorem closed_iff_satisfies : first.Closed grammar ↔
    Inclusion.Satisfies (grammar.productions.map inclusion) first.family := by
  rw [Inclusion.Satisfies, List.forall_mem_map]
  exact Iff.rfl

theorem monotone_of_mem : ∀ demand ∈ grammar.productions.map inclusion, demand.Monotone :=
  List.forall_mem_map.mpr fun production _ => inclusion_monotone production

theorem family_iterate (grammar : Grammar) (first : FirstSets) (passes : Nat) :
    ((pass grammar)^[passes] first).family =
      (Inclusion.pass (grammar.productions.map inclusion))^[passes] first.family := by
  have hpass : Function.Semiconj family (pass grammar)
      (Inclusion.pass (grammar.productions.map inclusion)) := fun _ => rfl
  exact hpass.iterate_right passes first

theorem gain_eq_zero_iff : gain grammar first = 0 ↔ first.Closed grammar := by
  rw [gain, Nat.sub_eq_zero_iff_le, closed_iff_satisfies,
    Inclusion.satisfies_iff_pass_le monotone_of_mem, Inclusion.pass_le_iff]
  exact Iff.rfl

theorem closed_iterate {later : Nat} (hlater : passes ≤ later)
    (h : ((pass grammar)^[passes] first).Closed grammar) :
    ((pass grammar)^[later] first).Closed grammar := by
  rw [closed_iff_satisfies, family_iterate] at h ⊢
  exact Inclusion.satisfies_iterate monotone_of_mem hlater h

theorem exists_closed_iterate (grammar : Grammar) (first : FirstSets) :
    ∃ passes, ((pass grammar)^[passes] first).Closed grammar := by
  have hends : Saturates (Inclusion.pass (grammar.productions.map inclusion))
      SymbolFamily.cardinality first.family ((growth grammar).saturate first.family) :=
    Inclusion.growth_saturates first.family
  obtain ⟨passes, -, hsatisfies⟩ := Inclusion.exists_satisfies_iterate monotone_of_mem hends
  rw [← family_iterate] at hsatisfies
  exact ⟨passes, closed_iff_satisfies.mpr hsatisfies⟩

theorem isLeast_iterate (h : ((pass grammar)^[passes] first).Closed grammar) :
    IsLeast (closedAbove grammar first) ((pass grammar)^[passes] first).family := by
  rw [closed_iff_satisfies, family_iterate] at h
  simp only [closedAbove, closed_iff_satisfies, family_iterate]
  exact Inclusion.isLeast_iterate monotone_of_mem h

theorem closedAbove_eq_of_perm (h : grammar.productions.Perm grammar'.productions)
    (first : FirstSets) : closedAbove grammar first = closedAbove grammar' first := by
  simp only [closedAbove, Closed, h.mem_iff]

end FirstSets

/-! ## FOLLOW sets -/

namespace FollowSets

variable {grammar : Grammar} {first : FirstSets} {follow : FollowSets}

theorem closed_iff_satisfies : Closed grammar first follow ↔
    (seed grammar).family ≤ follow.family ∧
      Inclusion.Satisfies ((Occurrence.inGrammar grammar).map (inclusion first)) follow.family := by
  rw [Inclusion.Satisfies, List.forall_mem_map]
  exact closed_iff_source_subset

theorem monotone_of_mem :
    ∀ demand ∈ (Occurrence.inGrammar grammar).map (inclusion first), demand.Monotone :=
  List.forall_mem_map.mpr fun occurrence _ => inclusion_monotone first occurrence

theorem isLeast_ofGrammar (grammar : Grammar) (first : FirstSets) :
    IsLeast {family | Closed grammar first ⟨family⟩} (ofGrammar grammar first).family := by
  have hends : Saturates (Inclusion.pass ((Occurrence.inGrammar grammar).map (inclusion first)))
      SymbolFamily.cardinality (seed grammar).family
      ((growth grammar first).saturate (seed grammar).family) :=
    Inclusion.growth_saturates _
  obtain ⟨passes, hvalue, hsatisfies⟩ := Inclusion.exists_satisfies_iterate monotone_of_mem hends
  have hleast := Inclusion.isLeast_iterate monotone_of_mem hsatisfies
  rw [← hvalue] at hleast
  simp only [closed_iff_satisfies]
  exact hleast

theorem pass_ofGrammar (grammar : Grammar) (first : FirstSets) :
    pass grammar first (ofGrammar grammar first) = ofGrammar grammar first := by
  have hsatisfies := (closed_iff_satisfies.mp (ofGrammar_closed grammar first)).2
  have hback : (pass grammar first (ofGrammar grammar first)).family ≤
      (ofGrammar grammar first).family :=
    (Inclusion.satisfies_iff_pass_le monotone_of_mem).mp hsatisfies
  have hkeys : ∀ symbol, symbol ∈ (pass grammar first (ofGrammar grammar first)).family.keys ↔
      symbol ∈ (ofGrammar grammar first).family.keys := by
    intro symbol
    apply Inclusion.mem_keys_pass_iff
    intro demand hdemand
    exact mem_keys_ofGrammar.mpr (target_mem_nonterminals demand hdemand)
  have hfamily : (pass grammar first (ofGrammar grammar first)).family =
      (ofGrammar grammar first).family :=
    SymbolFamily.ext_setOf hkeys fun symbol _ member =>
      ⟨hback symbol member, Inclusion.below_pass _ _ symbol member⟩
  exact congrArg FollowSets.mk hfamily

theorem gain_ofGrammar (grammar : Grammar) (first : FirstSets) :
    gain grammar first (ofGrammar grammar first) = 0 := by
  rw [gain, pass_ofGrammar, Nat.sub_self]

end FollowSets

/-- Passes over the productions of a grammar lead from any FIRST sets to the least sets above them
that are closed under the productions.  A pass removes nothing, and its gain is the number of
members that it adds; passes gain nothing from some point on, and once a pass gains nothing the
least closed sets are reached, whatever the order of the productions.  With any FIRST sets the
computation of the FOLLOW sets ends with the least closed ones, which a further pass leaves as they
are. -/
theorem saturation_isLeast (grammar : Grammar) (first : FirstSets) :
    ((∀ symbol, ∀ member ∈ first.setOf symbol,
          member ∈ (FirstSets.pass grammar first).setOf symbol) ∧
        first.family.cardinality ≤ (FirstSets.pass grammar first).family.cardinality ∧
        {pair : Symbol × Symbol | pair.2 ∈ (FirstSets.pass grammar first).setOf pair.1 ∧
          pair.2 ∉ first.setOf pair.1}.encard = FirstSets.gain grammar first) ∧
      (∃ bound, ∀ passes ≥ bound,
        FirstSets.gain grammar ((FirstSets.pass grammar)^[passes] first) = 0) ∧
      (∀ passes, FirstSets.gain grammar ((FirstSets.pass grammar)^[passes] first) = 0 →
        ∀ later ≥ passes, IsLeast (FirstSets.closedAbove grammar first)
          ((FirstSets.pass grammar)^[later] first).family) ∧
      (∀ grammar' : Grammar, grammar.productions.Perm grammar'.productions → ∀ passes passes',
        FirstSets.gain grammar ((FirstSets.pass grammar)^[passes] first) = 0 →
        FirstSets.gain grammar' ((FirstSets.pass grammar')^[passes'] first) = 0 →
        ∀ symbol, ((FirstSets.pass grammar)^[passes] first).setOf symbol =
          ((FirstSets.pass grammar')^[passes'] first).setOf symbol) ∧
      (Saturates (FollowSets.pass grammar first) (fun follow => follow.family.cardinality)
          (FollowSets.seed grammar) (FollowSets.computation grammar first) ∧
        IsLeast {family | FollowSets.Closed grammar first ⟨family⟩}
          (FollowSets.ofGrammar grammar first).family ∧
        FollowSets.gain grammar first (FollowSets.ofGrammar grammar first) = 0 ∧
        FollowSets.pass grammar first (FollowSets.ofGrammar grammar first) =
          FollowSets.ofGrammar grammar first) := by
  have hbelow : SymbolFamily.Below first.family (FirstSets.pass grammar first).family :=
    Inclusion.below_pass _ _
  refine ⟨⟨hbelow, SymbolFamily.cardinality_le_of_below hbelow, SymbolFamily.encard_gained hbelow⟩,
    ?_, fun passes hgain later hlater => ?_,
    fun grammar' hperm passes passes' hgain hgain' symbol => ?_,
    FollowSets.saturates grammar first _, FollowSets.isLeast_ofGrammar grammar first,
    FollowSets.gain_ofGrammar grammar first, FollowSets.pass_ofGrammar grammar first⟩
  · obtain ⟨bound, hclosed⟩ := FirstSets.exists_closed_iterate grammar first
    exact ⟨bound, fun passes hpasses =>
      FirstSets.gain_eq_zero_iff.mpr (FirstSets.closed_iterate hpasses hclosed)⟩
  · exact FirstSets.isLeast_iterate
      (FirstSets.closed_iterate hlater (FirstSets.gain_eq_zero_iff.mp hgain))
  · have hleast := FirstSets.isLeast_iterate (FirstSets.gain_eq_zero_iff.mp hgain)
    have hleast' := FirstSets.isLeast_iterate (FirstSets.gain_eq_zero_iff.mp hgain')
    rw [← FirstSets.closedAbove_eq_of_perm hperm] at hleast'
    exact SymbolFamily.setOf_eq_of_isLeast hleast hleast' symbol

end TableParsing
