import TableParsing.Sorted.Map

/-!
# What a map made from demands holds

Both parse tables come from a list of demands `(key, value)`: the transitions of
an automaton by `SortedMap.ofList`, the actions and predictions by
`SortedMap.fill`.  `get?_ofList` and `get?_of_fill` say that the map then holds
exactly the demanded pairs, provided that no key is demanded two values, or that
two values of one key would have been a clash.

Where `SortedMap.fill` fails, it does so at the first demand that contradicts an
earlier one (`exists_first_clash`).  Which one that is can be told from the sites of
the demands, if they are entered in the order of their sites (`exists_first_site`).
-/

namespace TableParsing

/-- A result that could be asked for an answer was made. -/
theorem exists_ok_of_toOption_map {ε α β : Type} {made : Except ε α} {ask : α → β} {answer : β}
    (h : made.toOption.map ask = some answer) :
    ∃ result, made = .ok result ∧ ask result = answer := by
  cases made with
  | error clash => cases h
  | ok result => exact ⟨result, rfl, Option.some.inj h⟩

theorem exists_map_eq_ok_iff {ε α β : Type} {made : Except ε α} {change : α → β} :
    (∃ changed, made.map change = .ok changed) ↔ ∃ result, made = .ok result := by
  cases made with
  | error clash => simp [Except.map]
  | ok result => simp [Except.map]

/-- What is made from a result cannot be made for no other reason than that the result cannot. -/
theorem map_eq_error_iff {ε α β : Type} {made : Except ε α} {change : α → β} {clash : ε} :
    made.map change = .error clash ↔ made = .error clash := by
  cases made with
  | error other => simp [Except.map]
  | ok result => simp [Except.map]

/-- The members of a list are numbered in increasing order. -/
theorem pairwise_zipIdx {α : Type} (members : List α) :
    members.zipIdx.Pairwise fun earlier later => earlier.2 < later.2 := by
  apply List.pairwise_map.mp
  rw [List.zipIdx_map_snd]
  exact List.pairwise_lt_range'

namespace SortedMap

open Std

variable {κ ν : Type} [Ord κ] [TransOrd κ] [LawfulEqOrd κ] [DecidableEq κ]

/-! ## Maps without clashes -/

private theorem get?_foldl_insert {entries : List (κ × ν)} {map : SortedMap κ ν} {key : κ} {value : ν}
    (hfunctional : ∀ key first second, (key, first) ∈ entries → (key, second) ∈ entries →
      first = second)
    (h : (key, value) ∈ entries ∨ map.get? key = some value ∧ ∀ other, (key, other) ∉ entries) :
    (entries.foldl (fun map entry => map.insert entry.1 entry.2) map).get? key = some value := by
  induction entries generalizing map with
  | nil => simpa using h
  | cons entry rest ih =>
      obtain ⟨other, content⟩ := entry
      rw [List.foldl_cons]
      have hrest : ∀ key first second, (key, first) ∈ rest → (key, second) ∈ rest →
          first = second := fun key first second hfirst hsecond =>
        hfunctional key first second (List.mem_cons_of_mem _ hfirst)
          (List.mem_cons_of_mem _ hsecond)
      apply ih hrest
      -- the last entry of the key counts, and all of them have the same value
      by_cases hlater : (key, value) ∈ rest
      · exact .inl hlater
      right
      rw [get?_insert]
      rcases h with h | ⟨hold, hnone⟩
      · have hhead : key = other ∧ value = content := by simpa [hlater] using h
        obtain ⟨rfl, rfl⟩ := hhead
        refine ⟨if_pos rfl, fun third hthird => hlater ?_⟩
        have := hfunctional key value third List.mem_cons_self (List.mem_cons_of_mem _ hthird)
        exact this ▸ hthird
      · have hne : key ≠ other := fun same => hnone content (same ▸ List.mem_cons_self)
        rw [if_neg hne]
        exact ⟨hold, fun third hthird => hnone third (List.mem_cons_of_mem _ hthird)⟩

private theorem mem_of_get?_foldl_insert {entries : List (κ × ν)} {map : SortedMap κ ν} {key : κ}
    {value : ν}
    (h : (entries.foldl (fun map entry => map.insert entry.1 entry.2) map).get? key =
      some value) :
    (key, value) ∈ entries ∨ map.get? key = some value := by
  induction entries generalizing map with
  | nil => exact .inr h
  | cons entry rest ih =>
      obtain ⟨other, content⟩ := entry
      rw [List.foldl_cons] at h
      rcases ih h with hrest | hmap
      · exact .inl (List.mem_cons_of_mem _ hrest)
      · rw [get?_insert] at hmap
        split at hmap
        · rename_i same
          cases same
          cases hmap
          exact .inl List.mem_cons_self
        · exact .inr hmap

/-- A map made from entries without contradictions holds these entries. -/
theorem get?_ofList {entries : List (κ × ν)}
    (hfunctional : ∀ key first second, (key, first) ∈ entries → (key, second) ∈ entries →
      first = second) {key : κ} {value : ν} :
    (ofList entries).get? key = some value ↔ (key, value) ∈ entries := by
  constructor
  · intro h
    rcases mem_of_get?_foldl_insert h with hmem | hempty
    · exact hmem
    · simp at hempty
  · intro h
    exact get?_foldl_insert hfunctional (.inl h)

/-! ## Maps that refuse clashes -/

variable {ε : Type} {clash? : κ → ν → ν → Option ε}

theorem get?_of_fill_of_get? {demands : List (κ × ν)} {map filled : SortedMap κ ν}
    (h : fill clash? demands map = .ok filled) {key : κ} {value : ν}
    (hvalue : map.get? key = some value) : filled.get? key = some value := by
  induction demands generalizing map with
  | nil =>
      cases h
      exact hvalue
  | cons demand rest ih =>
      obtain ⟨other, wanted⟩ := demand
      unfold fill at h
      split at h
      · rename_i hfree
        apply ih h
        rw [get?_insert, if_neg]
        · exact hvalue
        · rintro rfl
          rw [hvalue] at hfree
          cases hfree
      · split at h
        · cases h
        · exact ih h hvalue

/-- What a filled map holds was demanded or was there before. -/
theorem mem_of_get?_fill {demands : List (κ × ν)} {map filled : SortedMap κ ν}
    (h : fill clash? demands map = .ok filled) {key : κ} {value : ν}
    (hvalue : filled.get? key = some value) :
    (key, value) ∈ demands ∨ map.get? key = some value := by
  induction demands generalizing map with
  | nil =>
      cases h
      exact .inr hvalue
  | cons demand rest ih =>
      obtain ⟨other, wanted⟩ := demand
      unfold fill at h
      split at h
      · rcases ih h with hrest | hmap
        · exact .inl (List.mem_cons_of_mem _ hrest)
        · rw [get?_insert] at hmap
          split at hmap
          · rename_i same
            cases same
            cases hmap
            exact .inl List.mem_cons_self
          · exact .inr hmap
      · split at h
        · cases h
        · rcases ih h with hrest | hmap
          · exact .inl (List.mem_cons_of_mem _ hrest)
          · exact .inr hmap

/-- A demand that was entered is held, or another one of its key that does not clash with it. -/
theorem exists_get?_of_mem_demands {demands : List (κ × ν)} {map filled : SortedMap κ ν}
    (h : fill clash? demands map = .ok filled) {key : κ} {value : ν}
    (hdemand : (key, value) ∈ demands) :
    ∃ held, filled.get? key = some held ∧ (held = value ∨ clash? key held value = none) := by
  induction demands generalizing map with
  | nil => cases hdemand
  | cons demand rest ih =>
      obtain ⟨other, wanted⟩ := demand
      unfold fill at h
      split at h
      · rcases List.mem_cons.mp hdemand with same | hrest
        · cases same
          refine ⟨value, get?_of_fill_of_get? h ?_, .inl rfl⟩
          rw [get?_insert, if_pos rfl]
        · exact ih h hrest
      · rename_i earlier hheld
        split at h
        · cases h
        · rename_i hnone
          rcases List.mem_cons.mp hdemand with same | hrest
          · cases same
            exact ⟨earlier, get?_of_fill_of_get? h hheld, .inr hnone⟩
          · exact ih h hrest

/-- A map that was filled without a clash holds exactly the demanded pairs, if different demands of
one key would have clashed. -/
theorem get?_of_fill {demands : List (κ × ν)} {filled : SortedMap κ ν}
    (h : fill clash? demands ∅ = .ok filled)
    (hclash : ∀ key first second, (key, first) ∈ demands → (key, second) ∈ demands →
      clash? key first second = none → first = second) {key : κ} {value : ν} :
    filled.get? key = some value ↔ (key, value) ∈ demands := by
  have hdemanded : ∀ held, filled.get? key = some held → (key, held) ∈ demands := by
    intro held hheld
    rcases mem_of_get?_fill h hheld with hmem | hempty
    · exact hmem
    · simp at hempty
  constructor
  · exact hdemanded value
  · intro hdemand
    obtain ⟨held, hheld, same | hnone⟩ := exists_get?_of_mem_demands h hdemand
    · exact same ▸ hheld
    · exact hclash key held value (hdemanded held hheld) hdemand hnone ▸ hheld

theorem exists_fill {demands all : List (κ × ν)} {map : SortedMap κ ν}
    (hclash : ∀ key first second, (key, first) ∈ all → (key, second) ∈ all →
      clash? key first second = none)
    (hdemands : ∀ demand ∈ demands, demand ∈ all)
    (hmap : ∀ key held, map.get? key = some held → (key, held) ∈ all) :
    ∃ filled, fill clash? demands map = .ok filled := by
  induction demands generalizing map with
  | nil => exact ⟨map, rfl⟩
  | cons demand rest ih =>
      obtain ⟨key, wanted⟩ := demand
      have hwanted := hdemands _ List.mem_cons_self
      have hrest : ∀ demand ∈ rest, demand ∈ all := fun demand hdemand =>
        hdemands demand (List.mem_cons_of_mem _ hdemand)
      unfold fill
      split
      · refine ih hrest fun other held hheld => ?_
        rw [get?_insert] at hheld
        split at hheld
        · rename_i same
          cases same
          cases hheld
          exact hwanted
        · exact hmap other held hheld
      · rename_i earlier hearlier
        rw [hclash key earlier wanted (hmap key earlier hearlier) hwanted]
        exact ih hrest hmap

/-- Where exactly different values of one key clash, a map can be filled if and only if no key is
demanded two of them. -/
theorem exists_fill_iff {demands : List (κ × ν)}
    (hclash : ∀ key first second, (key, first) ∈ demands → (key, second) ∈ demands →
      (clash? key first second = none ↔ first = second)) :
    (∃ filled, fill clash? demands ∅ = .ok filled) ↔
      ∀ key first second, (key, first) ∈ demands → (key, second) ∈ demands → first = second := by
  constructor
  · rintro ⟨filled, h⟩ key first second hfirst hsecond
    have hheld : ∀ value, filled.get? key = some value ↔ (key, value) ∈ demands := fun value =>
      get?_of_fill h fun key first second hfirst hsecond =>
        (hclash key first second hfirst hsecond).mp
    exact Option.some.inj (((hheld first).mpr hfirst).symm.trans ((hheld second).mpr hsecond))
  · intro hfunctional
    refine exists_fill (fun key first second hfirst hsecond => ?_) (fun _ hdemand => hdemand)
      fun key held hheld => ?_
    · exact (hclash key first second hfirst hsecond).mpr
        (hfunctional key first second hfirst hsecond)
    · simp at hheld

/-! ## The first clash -/

/-- No key is demanded two values. -/
def Consistent (demands : List (κ × ν)) : Prop :=
  ∀ key first second, (key, first) ∈ demands → (key, second) ∈ demands → first = second

/-- Filling a map that holds what was demanded before fails at the first demand that contradicts an
earlier one, with the clash of these two. -/
theorem exists_first_clash (seen : List (κ × ν)) {demands : List (κ × ν)} {map : SortedMap κ ν}
    {clash : ε}
    (h : fill clash? demands map = .error clash)
    (hmap : ∀ key value, map.get? key = some value ↔ (key, value) ∈ seen)
    (hclash : ∀ key first second, (key, first) ∈ seen ++ demands → (key, second) ∈ seen ++ demands →
      clash? key first second = none → first = second) :
    ∃ before key earlier later after, demands = before ++ (key, later) :: after ∧
      Consistent (seen ++ before) ∧ (key, earlier) ∈ seen ++ before ∧
      clash? key earlier later = some clash := by
  induction demands generalizing seen map with
  | nil => cases h
  | cons demand rest ih =>
      obtain ⟨key, wanted⟩ := demand
      have hseen : seen ++ (key, wanted) :: rest = (seen ++ [(key, wanted)]) ++ rest := by simp
      -- when the demand has been met, the map holds it with the earlier ones
      have hlater : ∀ map' : SortedMap κ ν, fill clash? rest map' = .error clash →
          (∀ other value, map'.get? other = some value ↔
            (other, value) ∈ seen ∨ other = key ∧ value = wanted) →
          ∃ before other earlier later after, (key, wanted) :: rest =
              before ++ (other, later) :: after ∧
            Consistent (seen ++ before) ∧ (other, earlier) ∈ seen ++ before ∧
            clash? other earlier later = some clash := by
        intro map' hfill hmap'
        obtain ⟨before, other, earlier, later, after, rfl, hconsistent, hearlier, hlater⟩ :=
          ih (seen ++ [(key, wanted)]) hfill (by simpa using hmap') (hseen ▸ hclash)
        refine ⟨(key, wanted) :: before, other, earlier, later, after, rfl, ?_, ?_, hlater⟩
        · simpa using hconsistent
        · simpa using hearlier
      unfold fill at h
      split at h
      · rename_i hfree
        refine hlater _ h fun other value => ?_
        rw [get?_insert, ← hmap]
        by_cases hsame : other = key
        · subst hsame
          simp [hfree, eq_comm]
        · simp [hsame]
      · rename_i held hheld
        split at h
        · rename_i found hfound
          cases h
          refine ⟨[], key, held, wanted, rest, rfl, ?_, ?_, hfound⟩
          · intro other first second hfirst hsecond
            rw [List.append_nil, ← hmap] at hfirst hsecond
            exact Option.some.inj (hfirst.symm.trans hsecond)
          · rw [List.append_nil, ← hmap, hheld]
        · rename_i hnone
          have hmem : (key, held) ∈ seen := (hmap key held).mp hheld
          obtain rfl : held = wanted := hclash key held wanted (List.mem_append_left _ hmem)
            (List.mem_append_right _ List.mem_cons_self) hnone
          refine hlater _ h fun other value => ?_
          rw [hmap]
          constructor
          · exact .inl
          · rintro (hold | ⟨rfl, rfl⟩)
            · exact hold
            · exact hmem

/-- Filling a map with demands that stand at increasing sites fails at the first site at which an
earlier demand is contradicted. -/
theorem exists_first_site {π σ : Type} [Ord σ] [TransOrd σ] {entries : List π} {demand : π → κ × ν}
    {site : π → σ}
    (hsorted : entries.Pairwise fun earlier later => compare (site earlier) (site later) = .lt)
    (hclash : ∀ first ∈ entries, ∀ second ∈ entries, (demand first).1 = (demand second).1 →
      clash? (demand second).1 (demand first).2 (demand second).2 = none →
        (demand first).2 = (demand second).2)
    {clash : ε} (h : fill clash? (entries.map demand) ∅ = .error clash) :
    ∃ earlier ∈ entries, ∃ later ∈ entries, compare (site earlier) (site later) = .lt ∧
      (demand earlier).1 = (demand later).1 ∧
      clash? (demand later).1 (demand earlier).2 (demand later).2 = some clash ∧
      ∀ first ∈ entries, ∀ second ∈ entries, compare (site first) (site second) = .lt →
        (demand first).1 = (demand second).1 → (demand first).2 ≠ (demand second).2 →
          compare (site second) (site later) ≠ .lt := by
  obtain ⟨before, key, value, value', after, hsplit, hconsistent, hmem, hvalue⟩ :=
    exists_first_clash [] h (by simp) (by
      intro key first second hfirst hsecond hnone
      obtain ⟨entry, hentry, hdemand⟩ := List.mem_map.mp hfirst
      obtain ⟨entry', hentry', hdemand'⟩ := List.mem_map.mp hsecond
      have hsame := hclash entry hentry entry' hentry'
      rw [hdemand, hdemand'] at hsame
      exact hsame rfl hnone)
  rw [List.nil_append] at hconsistent hmem
  obtain ⟨front, back, rfl, rfl, hback⟩ := List.map_eq_append_iff.mp hsplit
  obtain ⟨later, rest, rfl, hlater, -⟩ := List.map_eq_cons_iff.mp hback
  obtain ⟨earlier, hearlier, hdemand⟩ := List.mem_map.mp hmem
  obtain ⟨-, hrest, hacross⟩ := List.pairwise_append.mp hsorted
  -- what stands at an earlier site was entered before
  have hfront : ∀ entry ∈ front ++ later :: rest, compare (site entry) (site later) = .lt →
      entry ∈ front := by
    intro entry hentry hbefore
    rcases List.mem_append.mp hentry with hentry | hentry
    · exact hentry
    rcases List.mem_cons.mp hentry with rfl | hentry
    · rw [ReflOrd.compare_self] at hbefore
      cases hbefore
    · have hafter := OrientedCmp.gt_of_lt ((List.pairwise_cons.mp hrest).1 entry hentry)
      rw [hbefore] at hafter
      cases hafter
  have hlast : later ∈ front ++ later :: rest := List.mem_append_right _ List.mem_cons_self
  refine ⟨earlier, List.mem_append_left _ hearlier, later, hlast,
    hacross earlier hearlier later List.mem_cons_self, ?_, ?_, ?_⟩
  · rw [hdemand, hlater]
  · rw [hdemand, hlater]
    exact hvalue
  · intro first hfirst second hsecond horder hkey hne hbefore
    have hin := hfront second hsecond hbefore
    have hin' := hfront first hfirst (TransCmp.lt_trans horder hbefore)
    refine hne (hconsistent (demand second).1 _ _ ?_ (List.mem_map_of_mem hin))
    rw [← hkey]
    exact List.mem_map_of_mem hin'

end SortedMap

end TableParsing
