import Mathlib.Algebra.Order.BigOperators.Group.Finset
import Mathlib.Data.Set.Card
import TableParsing.Proofs.Saturation
import TableParsing.Sets.Inclusion

/-!
# Saturated families satisfy their inclusions

The passes over a system of inclusions stop by comparing sizes, before and after
a pass.  This file shows that the comparison is right: the sizes count the members
that a family gains (`encard_gained`), so a family that a pass does not enlarge is
left by it as it was (`below_of_not_cardinality_lt`), and hence satisfies every
inclusion, although a pass reads the family while it writes it
(`source_subset_saturated`).  The passes start from a seed, which the outcome
includes (`below_saturated`), and bring in nothing but what the inclusions
demand: what holds of the members of the seed and is passed on by every inclusion
holds of all members of the outcome (`containedIn_saturated`).
-/

namespace TableParsing

namespace SymbolFamily

/-- Every set of the first family is included in the set of the same symbol in the second. -/
def Below (first second : SymbolFamily) : Prop :=
  ∀ symbol, ∀ member ∈ setOf first symbol, member ∈ setOf second symbol

theorem Below.refl (family : SymbolFamily) : Below family family := fun _ _ h => h

theorem Below.trans {first second third : SymbolFamily} (h : Below first second)
    (h' : Below second third) : Below first third :=
  fun symbol member hmember => h' symbol member (h symbol member hmember)

instance : Preorder SymbolFamily where
  le := Below
  le_refl := Below.refl
  le_trans _ _ _ := Below.trans

theorem setOf_eq_empty {family : SymbolFamily} {symbol : Symbol} (h : symbol ∉ family.keys) :
    setOf family symbol = ∅ := by
  have hnone : family.get? symbol = none :=
    Option.eq_none_iff_forall_ne_some.mpr fun set hset => h (SortedMap.mem_keys.mpr ⟨set, hset⟩)
  rw [setOf, hnone, Option.getD_none]

/-- Two families agree on a symbol that both have or neither, if its sets have the same members. -/
theorem get?_congr {family family' : SymbolFamily} {symbol : Symbol}
    (hkey : symbol ∈ family.keys ↔ symbol ∈ family'.keys)
    (hset : symbol ∈ family.keys →
      ∀ member, member ∈ setOf family symbol ↔ member ∈ setOf family' symbol) :
    family.get? symbol = family'.get? symbol := by
  cases hown : family.get? symbol with
  | some set =>
      have hmem : symbol ∈ family.keys := SortedMap.mem_keys.mpr ⟨set, hown⟩
      obtain ⟨set', hother⟩ := SortedMap.mem_keys.mp (hkey.mp hmem)
      have hsame : set = set' := by
        apply SortedSet.ext_mem
        intro member
        simpa [setOf, hown, hother] using hset hmem member
      rw [hother, hsame]
  | none =>
      cases hother : family'.get? symbol with
      | some set' =>
          obtain ⟨set, hset'⟩ :=
            SortedMap.mem_keys.mp (hkey.mpr (SortedMap.mem_keys.mpr ⟨set', hother⟩))
          rw [hown] at hset'
          cases hset'
      | none => rfl

/-- A family is known by its symbols and the members of their sets. -/
theorem ext_setOf {family family' : SymbolFamily}
    (hkeys : ∀ symbol, symbol ∈ family.keys ↔ symbol ∈ family'.keys)
    (hsets : ∀ symbol ∈ family.keys, ∀ member,
      member ∈ setOf family symbol ↔ member ∈ setOf family' symbol) : family = family' :=
  SortedMap.ext_get? fun symbol => get?_congr (hkeys symbol) (hsets symbol)

private theorem cardinality_eq_sum (family : SymbolFamily) :
    cardinality family = ∑ symbol ∈ family.keys.toList.toFinset, (setOf family symbol).size := by
  have hvalues : ∀ entry ∈ family.toList, (setOf family entry.1).size = entry.2.size := by
    intro entry hentry
    rw [setOf, SortedMap.mem_toList_iff.mp hentry, Option.getD_some]
  rw [List.sum_toFinset _ family.keys.nodup]
  show _ = ((family.toList.map (·.1)).map fun symbol => (setOf family symbol).size).sum
  calc cardinality family
      = (family.toList.map fun entry => entry.2.size).sum := by
        rw [List.sum_eq_foldr, List.foldr_map, cardinality]
    _ = (family.toList.map fun entry => (setOf family entry.1).size).sum := by
        rw [List.map_congr_left hvalues]
    _ = _ := by rw [List.map_map]; rfl

/-- The members of the sets, each with the symbol of its set. -/
def pairs (family : SymbolFamily) : Finset (Symbol × Symbol) :=
  family.keys.toList.toFinset.biUnion fun symbol =>
    (setOf family symbol).toList.toFinset.image (Prod.mk symbol)

private theorem mem_pairs {family : SymbolFamily} {pair : Symbol × Symbol} :
    pair ∈ pairs family ↔ pair.2 ∈ setOf family pair.1 := by
  obtain ⟨symbol, member⟩ := pair
  simp only [pairs, Finset.mem_biUnion, Finset.mem_image, List.mem_toFinset, Prod.mk.injEq,
    SortedSet.mem_toList]
  constructor
  · rintro ⟨_, _, _, hmember, rfl, rfl⟩
    exact hmember
  · intro hmember
    refine ⟨symbol, ?_, member, hmember, rfl, rfl⟩
    by_contra habsent
    rw [setOf_eq_empty habsent] at hmember
    exact SortedSet.not_mem_empty _ hmember

private theorem card_pairs (family : SymbolFamily) : (pairs family).card = cardinality family := by
  rw [cardinality_eq_sum, pairs, Finset.card_biUnion]
  · refine Finset.sum_congr rfl fun symbol _ => ?_
    rw [Finset.card_image_of_injective _ (Prod.mk_right_injective symbol),
      List.toFinset_card_of_nodup (SortedSet.nodup _)]
    rfl
  · intro symbol _ other _ hne
    refine Finset.disjoint_left.mpr fun pair hpair hpair' => ?_
    obtain ⟨_, _, rfl⟩ := Finset.mem_image.mp hpair
    obtain ⟨_, _, hsame⟩ := Finset.mem_image.mp hpair'
    exact hne (congrArg Prod.fst hsame).symm

private theorem below_iff_pairs_subset {family grown : SymbolFamily} :
    Below family grown ↔ pairs family ⊆ pairs grown := by
  constructor
  · intro h pair hpair
    exact mem_pairs.mpr (h _ _ (mem_pairs.mp hpair))
  · intro h symbol member hmember
    have hpair : (symbol, member) ∈ pairs family := mem_pairs.mpr hmember
    exact mem_pairs.mp (h hpair)

theorem cardinality_le_of_below {family grown : SymbolFamily} (h : Below family grown) :
    cardinality family ≤ cardinality grown := by
  rw [← card_pairs, ← card_pairs]
  exact Finset.card_le_card (below_iff_pairs_subset.mp h)

/-- A family that is below another one of no greater size has all its members. -/
theorem below_of_not_cardinality_lt {family grown : SymbolFamily} (h : Below family grown)
    (hsize : ¬ cardinality family < cardinality grown) : Below grown family := by
  rw [← card_pairs, ← card_pairs] at hsize
  have hsame := Finset.eq_of_subset_of_card_le (below_iff_pairs_subset.mp h) (Nat.le_of_not_lt hsize)
  exact below_iff_pairs_subset.mpr hsame.ge

/-- The sizes tell how many members a family has gained. -/
theorem encard_gained {family grown : SymbolFamily} (h : Below family grown) :
    {pair : Symbol × Symbol | pair.2 ∈ setOf grown pair.1 ∧ pair.2 ∉ setOf family pair.1}.encard =
      (cardinality grown - cardinality family : Nat) := by
  have hset : {pair : Symbol × Symbol | pair.2 ∈ setOf grown pair.1 ∧
      pair.2 ∉ setOf family pair.1} = ↑(pairs grown \ pairs family) := by
    ext pair
    simp only [Set.mem_ofPred_eq, Finset.mem_coe, Finset.mem_sdiff, mem_pairs]
  rw [hset, Set.encard_coe_eq_coe_finsetCard,
    Finset.card_sdiff_of_subset (below_iff_pairs_subset.mp h), card_pairs, card_pairs]

/-- Every member of a set is related to the symbol that the set belongs to. -/
def ContainedIn (relation : Symbol → Symbol → Prop) (family : SymbolFamily) : Prop :=
  ∀ symbol, ∀ member ∈ setOf family symbol, relation symbol member

theorem containedIn_ofKeys {relation : Symbol → Symbol → Prop} {keys : SymbolSet}
    {value : Symbol → SymbolSet} (h : ∀ symbol, ∀ member ∈ value symbol, relation symbol member) :
    ContainedIn relation (.ofKeys keys value) := by
  intro symbol member hmember
  rw [setOf, SortedMap.get?_ofKeys] at hmember
  split at hmember
  · exact h symbol member hmember
  · exact absurd hmember (SortedSet.not_mem_empty _)

end SymbolFamily

namespace Inclusion

open SymbolFamily

/-- What an inclusion demands of a larger family includes what it demands of a smaller one. -/
def Monotone (inclusion : Inclusion) : Prop :=
  ∀ first second, Below first second → ∀ member ∈ inclusion.source first,
    member ∈ inclusion.source second

theorem below_enforce (family : SymbolFamily) (inclusion : Inclusion) :
    Below family (enforce family inclusion) :=
  fun _ _ h => mem_setOf_add.mpr (.inl h)

theorem below_pass (inclusions : List Inclusion) (family : SymbolFamily) :
    Below family (pass inclusions family) := by
  induction inclusions generalizing family with
  | nil => exact Below.refl family
  | cons inclusion rest ih => exact (below_enforce family inclusion).trans (ih _)

theorem keys_subset_pass (inclusions : List Inclusion) {family : SymbolFamily} {symbol : Symbol}
    (h : symbol ∈ family.keys) : symbol ∈ (pass inclusions family).keys := by
  induction inclusions generalizing family with
  | nil => exact h
  | cons inclusion rest ih => exact ih (mem_keys_add.mpr (.inr h))

/-- A pass meets the demands that the inclusions make of the family before it. -/
theorem source_subset_pass {inclusions : List Inclusion} {family : SymbolFamily}
    {inclusion : Inclusion} (h : inclusion ∈ inclusions) (hmono : inclusion.Monotone)
    {member : Symbol} (hmember : member ∈ inclusion.source family) :
    member ∈ setOf (pass inclusions family) inclusion.target := by
  induction inclusions generalizing family with
  | nil => cases h
  | cons other rest ih =>
      rcases List.mem_cons.mp h with rfl | hrest
      · apply below_pass rest
        exact mem_setOf_add.mpr (.inr ⟨rfl, hmember⟩)
      · exact ih hrest (hmono _ _ (below_enforce family other) member hmember)

/-- After a pass that did not enlarge its family, monotone inclusions are satisfied. -/
theorem source_subset_pass_of_not_lt {inclusions : List Inclusion} {family : SymbolFamily}
    {inclusion : Inclusion} (h : inclusion ∈ inclusions) (hmono : inclusion.Monotone)
    (hsize : ¬ cardinality family < cardinality (pass inclusions family)) {member : Symbol}
    (hmember : member ∈ inclusion.source (pass inclusions family)) :
    member ∈ setOf (pass inclusions family) inclusion.target := by
  have hback : Below (pass inclusions family) family :=
    below_of_not_cardinality_lt (below_pass inclusions family) hsize
  exact source_subset_pass h hmono (hmono _ _ hback member hmember)

theorem containedIn_pass {relation : Symbol → Symbol → Prop} {inclusions : List Inclusion}
    (hsource : ∀ inclusion ∈ inclusions, ∀ family, ContainedIn relation family →
      ∀ member ∈ inclusion.source family, relation inclusion.target member)
    {family : SymbolFamily} (h : ContainedIn relation family) :
    ContainedIn relation (pass inclusions family) := by
  induction inclusions generalizing family with
  | nil => exact h
  | cons inclusion rest ih =>
      apply ih fun other hother => hsource other (List.mem_cons_of_mem _ hother)
      intro symbol member hmember
      rcases mem_setOf_add.mp hmember with hold | ⟨rfl, hnew⟩
      · exact h symbol member hold
      · exact hsource inclusion List.mem_cons_self family h member hnew

theorem mem_keys_pass_iff {inclusions : List Inclusion} {family : SymbolFamily}
    (h : ∀ inclusion ∈ inclusions, inclusion.target ∈ family.keys) {symbol : Symbol} :
    symbol ∈ (pass inclusions family).keys ↔ symbol ∈ family.keys := by
  refine ⟨fun hsymbol => ?_, keys_subset_pass inclusions⟩
  rcases SortedSet.mem_union.mp (keys_pass hsymbol) with hold | htarget
  · exact hold
  · obtain ⟨inclusion, hinclusion, rfl⟩ := List.mem_map.mp (SortedSet.mem_ofList.mp htarget)
    exact h inclusion hinclusion

variable {alphabet : SymbolSet} {inclusions : List Inclusion}
  {within : ∀ inclusion ∈ inclusions, inclusion.Within alphabet}

theorem below_saturated (family : SymbolFamily) :
    Below family ((growth alphabet inclusions within).saturate family).value :=
  (growth alphabet inclusions within).saturated_induct (motive := Below family) family
    (Below.refl family) fun state hstate => hstate.trans (below_pass inclusions state)

theorem source_subset_saturated (family : SymbolFamily) {inclusion : Inclusion}
    (h : inclusion ∈ inclusions) (hmono : inclusion.Monotone) {member : Symbol}
    (hmember : member ∈
      inclusion.source ((growth alphabet inclusions within).saturate family).value) :
    member ∈ setOf ((growth alphabet inclusions within).saturate family).value
      inclusion.target := by
  obtain ⟨last, hvalue, hsize⟩ := (growth alphabet inclusions within).exists_last_pass family
  rw [hvalue] at hmember ⊢
  exact source_subset_pass_of_not_lt h hmono hsize hmember

/-- A relation that the seed has and every inclusion keeps holds of the saturated family. -/
theorem containedIn_saturated {relation : Symbol → Symbol → Prop} {family : SymbolFamily}
    (hseed : ContainedIn relation family)
    (hsource : ∀ inclusion ∈ inclusions, ∀ current, ContainedIn relation current →
      ∀ member ∈ inclusion.source current, relation inclusion.target member) :
    ContainedIn relation ((growth alphabet inclusions within).saturate family).value :=
  (growth alphabet inclusions within).saturated_induct family hseed fun _ hstate =>
    containedIn_pass hsource hstate

/-- The keys are those of the seed, if it has all that are constrained. -/
theorem mem_keys_saturated {family : SymbolFamily}
    (h : ∀ inclusion ∈ inclusions, inclusion.target ∈ family.keys) {symbol : Symbol} :
    symbol ∈ ((growth alphabet inclusions within).saturate family).value.keys ↔
      symbol ∈ family.keys := by
  refine (growth alphabet inclusions within).saturated_induct
    (motive := fun state => ∀ symbol, symbol ∈ state.keys ↔ symbol ∈ family.keys) family
    (fun _ => Iff.rfl) (fun state hstate symbol => ?_) symbol
  rw [← hstate symbol]
  exact mem_keys_pass_iff fun inclusion hinclusion => (hstate _).mpr (h inclusion hinclusion)

theorem growth_saturates (family : SymbolFamily) :
    Saturates (pass inclusions) cardinality family
      ((growth alphabet inclusions within).saturate family) :=
  (growth alphabet inclusions within).saturates
    (fun state => cardinality_le_of_below (below_pass inclusions state)) family

end Inclusion

end TableParsing
