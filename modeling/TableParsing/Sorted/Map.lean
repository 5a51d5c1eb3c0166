import TableParsing.Sorted.Set

/-!
# Finite maps in increasing order of their keys

A `SortedMap κ ν` is a list of entries with strictly increasing keys.  As for
sets, equal maps are equal values (`SortedMap.ext_get?`), and listing a map
lists its keys in order.  `get?` reads the map; what each operation does is
said through it.
-/

namespace TableParsing

open Std

/-- A finite map, held as the list of its entries with strictly increasing keys. -/
structure SortedMap (κ ν : Type) [Ord κ] where
  /-- The entries in increasing order of the keys. -/
  toList : List (κ × ν)
  /-- Each key comes before all later ones. -/
  sorted : toList.Pairwise fun a b => compare a.1 b.1 = .lt

namespace SortedMap

variable {κ ν : Type} [Ord κ]

/-! ## Reading -/

protected def empty : SortedMap κ ν := ⟨[], .nil⟩

instance : EmptyCollection (SortedMap κ ν) := ⟨SortedMap.empty⟩

instance : Inhabited (SortedMap κ ν) := ⟨∅⟩

instance [DecidableEq κ] [DecidableEq ν] : DecidableEq (SortedMap κ ν) := fun first second =>
  if h : first.toList = second.toList then
    isTrue (by cases first; cases second; cases h; rfl)
  else
    isFalse fun same => h (same ▸ rfl)

def size (map : SortedMap κ ν) : Nat := map.toList.length

def isEmpty (map : SortedMap κ ν) : Bool := map.toList.isEmpty

/-- The value of a key in an increasing list of entries; the search ends at the first later key. -/
def findIn (key : κ) : List (κ × ν) → Option ν
  | [] => none
  | (other, value) :: rest =>
    match compare key other with
    | .lt => none
    | .eq => some value
    | .gt => findIn key rest

def get? (map : SortedMap κ ν) (key : κ) : Option ν := findIn key map.toList

def keys (map : SortedMap κ ν) : SortedSet κ :=
  ⟨map.toList.map (·.1), List.pairwise_map.mpr map.sorted⟩

@[simp] theorem get?_empty (key : κ) : (∅ : SortedMap κ ν).get? key = none := rfl

section Lawful

variable [TransOrd κ] [LawfulEqOrd κ]

theorem findIn_eq_some_iff {key : κ} {value : ν} {entries : List (κ × ν)}
    (h : entries.Pairwise fun a b => compare a.1 b.1 = .lt) :
    findIn key entries = some value ↔ (key, value) ∈ entries := by
  induction entries with
  | nil => simp [findIn]
  | cons entry rest ih =>
    obtain ⟨other, content⟩ := entry
    have later := List.pairwise_cons.mp h
    have absent : compare key other ≠ .gt → (key, value) ∉ rest := fun notAbove hmem =>
      notAbove (OrientedCmp.gt_of_lt (later.1 _ hmem))
    unfold findIn
    split
    · rename_i below
      refine ⟨(nomatch ·), fun hmem => ?_⟩
      rcases List.mem_cons.mp hmem with same | hmem
      · cases same
        rw [ReflOrd.compare_self] at below
        cases below
      · exact absurd hmem (absent (by simp [below]))
    · rename_i same
      have := LawfulEqOrd.eq_of_compare same
      subst this
      constructor
      · intro found
        cases found
        exact List.mem_cons_self
      · intro hmem
        rcases List.mem_cons.mp hmem with same | hmem
        · cases same; rfl
        · exact absurd hmem (absent (by simp))
    · rename_i above
      rw [ih later.2]
      refine ⟨fun hmem => List.mem_cons_of_mem _ hmem, fun hmem => ?_⟩
      rcases List.mem_cons.mp hmem with same | hmem
      · cases same
        rw [ReflOrd.compare_self] at above
        cases above
      · exact hmem

theorem mem_toList_iff {map : SortedMap κ ν} {key : κ} {value : ν} :
    (key, value) ∈ map.toList ↔ map.get? key = some value :=
  (findIn_eq_some_iff map.sorted).symm

theorem mem_keys {map : SortedMap κ ν} {key : κ} :
    key ∈ map.keys ↔ ∃ value, map.get? key = some value := by
  show key ∈ map.toList.map (·.1) ↔ _
  simp [List.mem_map, mem_toList_iff]

/-- A map is known by the values of its keys. -/
theorem ext_get? {first second : SortedMap κ ν}
    (h : ∀ key, first.get? key = second.get? key) : first = second := by
  have distinct : ∀ map : SortedMap κ ν, map.toList.Nodup := fun map =>
    map.sorted.imp fun {a b} below same => by
      subst same
      rw [ReflOrd.compare_self] at below
      cases below
  have lists : first.toList = second.toList :=
    List.Perm.eq_of_pairwise
      (fun a b _ _ below above => by
        rw [OrientedOrd.eq_swap, above] at below
        cases below)
      first.sorted second.sorted
      ((List.perm_ext_iff_of_nodup (distinct first) (distinct second)).mpr fun ⟨key, value⟩ => by
        rw [mem_toList_iff, mem_toList_iff, h])
  cases first; cases second; cases lists; rfl

/-! ## Writing -/

/-- Enters a value into an increasing list of entries, in place of what the key had. -/
def insertInto (key : κ) (value : ν) : List (κ × ν) → List (κ × ν)
  | [] => [(key, value)]
  | (other, content) :: rest =>
    match compare key other with
    | .lt => (key, value) :: (other, content) :: rest
    | .eq => (key, value) :: rest
    | .gt => (other, content) :: insertInto key value rest

omit [TransOrd κ] [LawfulEqOrd κ] in
theorem fst_of_mem_insertInto {key : κ} {value : ν} {entries : List (κ × ν)} {entry : κ × ν}
    (h : entry ∈ insertInto key value entries) :
    entry.1 = key ∨ entry ∈ entries := by
  induction entries with
  | nil => simp_all [insertInto]
  | cons other rest ih =>
    obtain ⟨other, content⟩ := other
    unfold insertInto at h
    split at h <;> grind

theorem sorted_insertInto (key : κ) (value : ν) {entries : List (κ × ν)}
    (h : entries.Pairwise fun a b => compare a.1 b.1 = .lt) :
    (insertInto key value entries).Pairwise fun a b => compare a.1 b.1 = .lt := by
  induction entries with
  | nil => simp [insertInto]
  | cons entry rest ih =>
    obtain ⟨other, content⟩ := entry
    have later := List.pairwise_cons.mp h
    unfold insertInto
    split
    · rename_i below
      refine List.pairwise_cons.mpr ⟨fun b hb => ?_, h⟩
      rcases List.mem_cons.mp hb with rfl | hb
      · exact below
      · exact TransCmp.lt_trans below (later.1 b hb)
    · rename_i same
      have := LawfulEqOrd.eq_of_compare same
      subst this
      exact List.pairwise_cons.mpr ⟨later.1, later.2⟩
    · rename_i above
      refine List.pairwise_cons.mpr ⟨fun b hb => ?_, ih later.2⟩
      rcases fst_of_mem_insertInto hb with same | hb
      · rw [same]
        exact OrientedCmp.lt_of_gt above
      · exact later.1 b hb

/-- Gives a key a value, in place of the value it had. -/
def insert (map : SortedMap κ ν) (key : κ) (value : ν) : SortedMap κ ν :=
  ⟨insertInto key value map.toList, sorted_insertInto key value map.sorted⟩

theorem findIn_insertInto [DecidableEq κ] {key other : κ} {value : ν} (entries : List (κ × ν)) :
    findIn other (insertInto key value entries) =
      if other = key then some value else findIn other entries := by
  induction entries with
  | nil =>
    unfold insertInto findIn findIn
    split <;> rename_i order
    · rw [if_neg]
      rintro rfl
      rw [ReflOrd.compare_self] at order
      cases order
    · rw [if_pos (LawfulEqOrd.eq_of_compare order)]
    · rw [if_neg]
      rintro rfl
      rw [ReflOrd.compare_self] at order
      cases order
  | cons entry rest ih =>
    obtain ⟨third, content⟩ := entry
    have self : ∀ a : κ, compare a a = .eq := fun a => ReflOrd.compare_self
    have lawful : ∀ {a b : κ}, compare a b = .eq → a = b := LawfulEqOrd.eq_of_compare
    have trans : ∀ {a b c : κ}, compare a b = .lt → compare b c = .lt → compare a c = .lt :=
      TransCmp.lt_trans
    have swap : ∀ {a b : κ}, compare a b = .gt → compare b a = .lt := OrientedCmp.lt_of_gt
    have swap' : ∀ {a b : κ}, compare a b = .lt → compare b a = .gt := OrientedCmp.gt_of_lt
    unfold insertInto
    split <;> simp only [findIn] <;> grind

@[simp] theorem get?_insert [DecidableEq κ] (map : SortedMap κ ν) (key other : κ) (value : ν) :
    (map.insert key value).get? other = if other = key then some value else map.get? other :=
  findIn_insertInto map.toList

/-- The map with the entries of a list; of two values of a key the later one counts. -/
def ofList (entries : List (κ × ν)) : SortedMap κ ν :=
  entries.foldl (fun map entry => map.insert entry.1 entry.2) ∅

/-- The map that gives each key of a set the value of a function. -/
def ofKeys (keys : SortedSet κ) (value : κ → ν) : SortedMap κ ν :=
  ⟨keys.toList.map fun key => (key, value key), List.pairwise_map.mpr keys.sorted⟩

theorem get?_ofKeys [DecidableEq κ] (keys : SortedSet κ) (value : κ → ν) (key : κ) :
    (ofKeys keys value).get? key = if key ∈ keys then some (value key) else none := by
  have found : ∀ content, (ofKeys keys value).get? key = some content ↔
      key ∈ keys ∧ value key = content := by
    intro content
    rw [← mem_toList_iff]
    simp only [ofKeys, List.mem_map, Prod.mk.injEq, SortedSet.mem_toList]
    grind
  split
  · rename_i h
    exact (found _).mpr ⟨h, rfl⟩
  · rename_i h
    exact Option.eq_none_iff_forall_ne_some.mpr fun content hc => h ((found content).mp hc).1

omit [TransOrd κ] [LawfulEqOrd κ] in
@[simp] theorem keys_ofKeys (keys : SortedSet κ) (value : κ → ν) :
    (ofKeys keys value).keys = keys := by
  cases keys
  simp [ofKeys, SortedMap.keys, Function.comp_def]

/-! ## Filling a map from demands

A list of demands `(key, value)` is entered from left to right.  Keys that are
free take the value; a key that holds another value is handed to `clash?`, which
says whether this ends the filling, and how. -/

/-- Enters demands from left to right, up to the first clash. -/
def fill {ε : Type} (clash? : κ → ν → ν → Option ε) :
    List (κ × ν) → SortedMap κ ν → Except ε (SortedMap κ ν)
  | [], map => .ok map
  | (key, value) :: rest, map =>
    match map.get? key with
    | none => fill clash? rest (map.insert key value)
    | some earlier =>
      match clash? key earlier value with
      | some clash => .error clash
      | none => fill clash? rest map

end Lawful

end SortedMap

end TableParsing
