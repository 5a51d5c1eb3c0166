/-!
# Finite sets in increasing order

A `SortedSet α` is a strictly increasing list.  A finite set has exactly one
such list, so two sets with the same members are the same value
(`SortedSet.ext_mem`), and listing a set always lists it in order.

The order is the one of `compare`; `TransOrd` and `LawfulEqOrd` say that it is a
linear order whose equality is equality.  Sets have such an order again, so that
they can be members of sets and keys of maps.
-/

namespace TableParsing

open Std

/-- A finite set, held as the strictly increasing list of its members. -/
structure SortedSet (α : Type) [Ord α] where
  /-- The members in increasing order. -/
  toList : List α
  /-- Each member comes before all later ones. -/
  sorted : toList.Pairwise fun a b => compare a b = .lt

namespace SortedSet

variable {α : Type} [Ord α]

/-! ## Membership and equality -/

protected def empty : SortedSet α := ⟨[], .nil⟩

instance : EmptyCollection (SortedSet α) := ⟨SortedSet.empty⟩

instance : Inhabited (SortedSet α) := ⟨∅⟩

instance : Membership α (SortedSet α) := ⟨fun set a => a ∈ set.toList⟩

instance [DecidableEq α] (a : α) (set : SortedSet α) : Decidable (a ∈ set) :=
  inferInstanceAs (Decidable (a ∈ set.toList))

instance [DecidableEq α] : DecidableEq (SortedSet α) := fun first second =>
  if h : first.toList = second.toList then
    isTrue (by cases first; cases second; cases h; rfl)
  else
    isFalse fun same => h (same ▸ rfl)

def size (set : SortedSet α) : Nat := set.toList.length

def isEmpty (set : SortedSet α) : Bool := set.toList.isEmpty

@[simp] theorem mem_toList {a : α} {set : SortedSet α} : a ∈ set.toList ↔ a ∈ set := Iff.rfl

@[simp] theorem not_mem_empty (a : α) : a ∉ (∅ : SortedSet α) := fun h => nomatch h

theorem nodup [TransOrd α] (set : SortedSet α) : set.toList.Nodup :=
  set.sorted.imp fun {a b} h same => by
    subst same
    rw [ReflOrd.compare_self] at h
    cases h

/-- A set is known by its members. -/
theorem ext_mem [TransOrd α] {first second : SortedSet α}
    (h : ∀ a, a ∈ first ↔ a ∈ second) : first = second := by
  have lists : first.toList = second.toList :=
    List.Perm.eq_of_pairwise
      (fun a b _ _ below above => by
        rw [OrientedOrd.eq_swap, above] at below
        cases below)
      first.sorted second.sorted
      ((List.perm_ext_iff_of_nodup first.nodup second.nodup).mpr h)
  cases first; cases second; cases lists; rfl

theorem size_le_of_subset [TransOrd α] [DecidableEq α] {first second : SortedSet α}
    (h : ∀ a ∈ first, a ∈ second) : first.size ≤ second.size :=
  first.nodup.length_le_of_subset h

/-- A set with all members of another one and one more is larger. -/
theorem size_lt_of_subset [TransOrd α] [DecidableEq α] {first second : SortedSet α}
    (h : ∀ a ∈ first, a ∈ second) {a : α} (hmem : a ∈ second) (hnew : a ∉ first) :
    first.size < second.size := by
  have hnodup : (a :: first.toList).Nodup := List.nodup_cons.mpr ⟨hnew, first.nodup⟩
  apply hnodup.length_le_of_subset
  intro b hb
  rcases List.mem_cons.mp hb with rfl | hb
  · exact hmem
  · exact h b hb

/-! ## Order -/

/-- Sets are in the order of the lists of their members. -/
instance : Ord (SortedSet α) := ⟨compareOn toList⟩

instance [TransOrd α] : TransOrd (SortedSet α) :=
  inferInstanceAs (TransCmp (compareOn toList))

instance [TransOrd α] [LawfulEqOrd α] : LawfulEqOrd (SortedSet α) where
  eq_of_compare {first second} h := by
    have lists : first.toList = second.toList := LawfulEqOrd.eq_of_compare h
    cases first; cases second; cases lists; rfl

/-! ## Insertion, union and selection -/

/-- Inserts a member into an increasing list, unless it is there. -/
def insertInto (a : α) : List α → List α
  | [] => [a]
  | b :: rest =>
    match compare a b with
    | .lt => a :: b :: rest
    | .eq => b :: rest
    | .gt => b :: insertInto a rest

theorem mem_insertInto [LawfulEqOrd α] {a b : α} {members : List α} :
    b ∈ insertInto a members ↔ b = a ∨ b ∈ members := by
  induction members with
  | nil => simp [insertInto]
  | cons c rest ih =>
    unfold insertInto
    split
    · simp
    · rename_i same
      have := LawfulEqOrd.eq_of_compare same
      subst this
      simp
    · simp only [List.mem_cons, ih]
      grind

theorem sorted_insertInto [TransOrd α] [LawfulEqOrd α] (a : α) {members : List α}
    (h : members.Pairwise fun a b => compare a b = .lt) :
    (insertInto a members).Pairwise fun a b => compare a b = .lt := by
  induction members with
  | nil => simp [insertInto]
  | cons c rest ih =>
    have later := List.pairwise_cons.mp h
    unfold insertInto
    split
    · rename_i below
      refine List.pairwise_cons.mpr ⟨fun b hb => ?_, h⟩
      rcases List.mem_cons.mp hb with rfl | hb
      · exact below
      · exact TransCmp.lt_trans below (later.1 b hb)
    · exact h
    · rename_i above
      refine List.pairwise_cons.mpr ⟨fun b hb => ?_, ih later.2⟩
      rcases mem_insertInto.mp hb with rfl | hb
      · exact OrientedCmp.lt_of_gt above
      · exact later.1 b hb

variable [TransOrd α] [LawfulEqOrd α]

def insert (set : SortedSet α) (a : α) : SortedSet α :=
  ⟨insertInto a set.toList, sorted_insertInto a set.sorted⟩

/-- The set of the members of a list, in whatever order and however often they stand in it. -/
def ofList (members : List α) : SortedSet α :=
  members.foldr (fun a set => set.insert a) ∅

/-- All members of two sets. -/
protected def union (first second : SortedSet α) : SortedSet α :=
  second.toList.foldr (fun a set => set.insert a) first

instance : Union (SortedSet α) := ⟨SortedSet.union⟩

instance : Singleton α (SortedSet α) := ⟨fun a => (∅ : SortedSet α).insert a⟩

def filter (keep : α → Bool) (set : SortedSet α) : SortedSet α :=
  ⟨set.toList.filter keep, set.sorted.filter keep⟩

omit [TransOrd α] [LawfulEqOrd α] in
@[simp] theorem mem_filter {keep : α → Bool} {set : SortedSet α} {a : α} :
    a ∈ set.filter keep ↔ a ∈ set ∧ keep a = true :=
  List.mem_filter

@[simp] theorem mem_insert {a b : α} {set : SortedSet α} :
    b ∈ set.insert a ↔ b = a ∨ b ∈ set :=
  mem_insertInto

theorem mem_foldr_insert {a : α} {members : List α} {set : SortedSet α} :
    a ∈ members.foldr (fun b grown => grown.insert b) set ↔ a ∈ members ∨ a ∈ set := by
  induction members with
  | nil => simp
  | cons b rest ih => simp [ih, or_assoc]

@[simp] theorem mem_ofList {a : α} {members : List α} : a ∈ ofList members ↔ a ∈ members := by
  simp [ofList, mem_foldr_insert]

@[simp] theorem mem_union {a : α} {first second : SortedSet α} :
    a ∈ first ∪ second ↔ a ∈ first ∨ a ∈ second := by
  show a ∈ second.toList.foldr (fun b grown => grown.insert b) first ↔ _
  rw [mem_foldr_insert, mem_toList, or_comm]

@[simp] theorem mem_singleton {a b : α} : a ∈ ({b} : SortedSet α) ↔ a = b := by
  show a ∈ (∅ : SortedSet α).insert b ↔ _
  simp

/-! ## Counting subsets -/

omit [TransOrd α] [LawfulEqOrd α] in
/-- The number whose binary digits tell which of some elements are members of a set. -/
def code [DecidableEq α] (elements : List α) (set : SortedSet α) : Nat :=
  elements.foldr (fun a digits => 2 * digits + if a ∈ set then 1 else 0) 0

omit [TransOrd α] [LawfulEqOrd α] in
theorem code_lt [DecidableEq α] (elements : List α) (set : SortedSet α) :
    code elements set < Nat.pow 2 elements.length := by
  induction elements with
  | nil => exact Nat.one_pos
  | cons a rest ih =>
    have unfolded : code (a :: rest) set = 2 * code rest set + if a ∈ set then 1 else 0 := rfl
    have doubled : Nat.pow 2 (a :: rest).length = Nat.pow 2 rest.length * 2 := rfl
    rw [unfolded, doubled]
    split <;> omega

omit [TransOrd α] [LawfulEqOrd α] in
theorem mem_iff_of_code_eq [DecidableEq α] {elements : List α} {first second : SortedSet α}
    (h : code elements first = code elements second) : ∀ a ∈ elements, a ∈ first ↔ a ∈ second := by
  induction elements with
  | nil => simp
  | cons a rest ih =>
    have unfolded : ∀ set : SortedSet α,
        code (a :: rest) set = 2 * code rest set + if a ∈ set then 1 else 0 := fun _ => rfl
    rw [unfolded, unfolded] at h
    have heads : a ∈ first ↔ a ∈ second := by
      by_cases inFirst : a ∈ first <;> by_cases inSecond : a ∈ second <;>
        simp only [inFirst, inSecond, if_true, if_false] at h ⊢ <;> omega
    have tails : code rest first = code rest second := by
      by_cases inFirst : a ∈ first <;> by_cases inSecond : a ∈ second <;>
        simp only [inFirst, inSecond, if_true, if_false] at h <;> omega
    intro b hb
    rcases List.mem_cons.mp hb with rfl | hb
    · exact heads
    · exact ih tails b hb

omit [LawfulEqOrd α] in
/-- Pairwise different sets with members from a list of `n` elements number at most two to the `n`. -/
theorem length_le_two_pow [DecidableEq α] {elements : List α} {sets : List (SortedSet α)}
    (distinct : sets.Nodup) (within : ∀ set ∈ sets, ∀ a ∈ set, a ∈ elements) :
    sets.length ≤ Nat.pow 2 elements.length := by
  have codes : (sets.map (code elements)).Nodup := by
    refine List.nodup_iff_pairwise_ne.mpr (List.pairwise_map.mpr ?_)
    refine (List.pairwise_iff_forall_sublist.mpr ?_ : sets.Pairwise _)
    intro first second hsub same
    have hfirst : first ∈ sets := hsub.subset List.mem_cons_self
    have hsecond : second ∈ sets := hsub.subset (List.mem_cons_of_mem _ List.mem_cons_self)
    have different : first ≠ second := by
      have := List.nodup_iff_pairwise_ne.mp (hsub.nodup distinct)
      simpa using this
    refine different (ext_mem fun a => ⟨fun ha => ?_, fun ha => ?_⟩)
    · exact (mem_iff_of_code_eq same a (within first hfirst a ha)).mp ha
    · exact (mem_iff_of_code_eq same a (within second hsecond a ha)).mpr ha
  have bounded : (sets.map (code elements)).length ≤ (List.range (Nat.pow 2 elements.length)).length :=
    codes.length_le_of_subset fun number hnumber => by
      obtain ⟨set, _, rfl⟩ := List.mem_map.mp hnumber
      exact List.mem_range.mpr (code_lt elements set)
  simpa using bounded

end SortedSet

end TableParsing
