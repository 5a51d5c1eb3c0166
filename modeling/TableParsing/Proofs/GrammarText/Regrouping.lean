import Mathlib.Data.List.Basic
import TableParsing.GrammarText.Writer

/-!
# Productions grouped by left-hand side

A text has one line for each left-hand side, so it lists the productions in groups:
those with one left-hand side together and in their order, the groups in the order
in which their left-hand sides first appear (`regroup`).  Nothing but the order is
changed, and grouping again changes nothing (`group_regroup`, `heads_regroup`).
Productions that stand in groups already, with no other one between two of one
left-hand side, are the ones that stay as they are (`regroup_eq_self_iff`).

The first production, the rest of its group and the groups of what is left over make
the recursion (`regroup_cons`) along which all of this is proved (`heads_induct`).
-/

namespace TableParsing.GrammarText

variable {productions : List Production} {lhs : Symbol}

/-- The productions of a left-hand side. -/
def group (lhs : Symbol) (productions : List Production) : List Production :=
  productions.filter fun production => production.lhs == lhs

/-- The productions of the other left-hand sides. -/
def others (lhs : Symbol) (productions : List Production) : List Production :=
  productions.filter fun production => !production.lhs == lhs

/-- The productions in groups, in the order in which the left-hand sides first appear. -/
def regroup (productions : List Production) : List Production :=
  (heads productions).flatMap fun lhs => group lhs productions

/-- Between two productions of one left-hand side stand only others of it. -/
def Contiguous (productions : List Production) : Prop :=
  ∀ first middle last, [first, middle, last].Sublist productions → first.lhs = last.lhs →
    middle.lhs = first.lhs

theorem mem_group {production : Production} :
    production ∈ group lhs productions ↔ production ∈ productions ∧ production.lhs = lhs := by
  simp [group]

theorem mem_others {production : Production} :
    production ∈ others lhs productions ↔ production ∈ productions ∧ production.lhs ≠ lhs := by
  simp [others]

theorem group_append (front back : List Production) :
    group lhs (front ++ back) = group lhs front ++ group lhs back :=
  List.filter_append ..

theorem others_append (front back : List Production) :
    others lhs (front ++ back) = others lhs front ++ others lhs back :=
  List.filter_append ..

theorem group_eq_self (h : ∀ production ∈ productions, production.lhs = lhs) :
    group lhs productions = productions :=
  List.filter_eq_self.mpr fun production hproduction => by simp [h production hproduction]

theorem group_eq_nil (h : ∀ production ∈ productions, production.lhs ≠ lhs) :
    group lhs productions = [] :=
  List.filter_eq_nil_iff.mpr fun production hproduction => by simp [h production hproduction]

theorem others_eq_self (h : ∀ production ∈ productions, production.lhs ≠ lhs) :
    others lhs productions = productions :=
  List.filter_eq_self.mpr fun production hproduction => by simp [h production hproduction]

theorem others_eq_nil (h : ∀ production ∈ productions, production.lhs = lhs) :
    others lhs productions = [] :=
  List.filter_eq_nil_iff.mpr fun production hproduction => by simp [h production hproduction]

private theorem group_cons_of_eq {first : Production} (h : first.lhs = lhs) (rest : List Production) :
    group lhs (first :: rest) = first :: group lhs rest :=
  List.filter_cons_of_pos (beq_iff_eq.mpr h)

private theorem group_cons_of_ne {first : Production} (h : first.lhs ≠ lhs) (rest : List Production) :
    group lhs (first :: rest) = group lhs rest :=
  List.filter_cons_of_neg (by simpa using h)

private theorem others_cons_of_eq {first : Production} (h : first.lhs = lhs) (rest : List Production) :
    others lhs (first :: rest) = others lhs rest :=
  List.filter_cons_of_neg (by simpa using h)

/-- Other groups are not touched when one is taken out. -/
theorem group_others {other : Symbol} (h : other ≠ lhs) :
    group other (others lhs productions) = group other productions := by
  rw [group, others, List.filter_filter]
  apply List.filter_congr
  intro production _
  by_cases hsame : production.lhs = other <;> simp [hsame, h]

/-! ## The left-hand sides -/

theorem heads_cons (first : Production) (rest : List Production) :
    heads (first :: rest) = first.lhs :: heads (others first.lhs rest) := by
  rw [heads, List.map_cons, List.eraseDups_cons, List.filter_map]
  rfl

theorem mem_heads : lhs ∈ heads productions ↔ ∃ production ∈ productions, production.lhs = lhs := by
  rw [heads, List.mem_eraseDups, List.mem_map]

/-- What holds of productions if it holds of those with another left-hand side than the first one
holds of all lists. -/
theorem heads_induct {motive : List Production → Prop} (nil : motive [])
    (cons : ∀ first rest, motive (others first.lhs rest) → motive (first :: rest)) :
    ∀ productions, motive productions
  | [] => nil
  | first :: rest => cons first rest (heads_induct nil cons (others first.lhs rest))
termination_by productions => productions.length
decreasing_by exact Nat.lt_succ_of_le (List.length_filter_le _ _)

theorem heads_nodup (productions : List Production) : (heads productions).Nodup := by
  induction productions using heads_induct with
  | nil => exact List.nodup_nil
  | cons first rest ih =>
      rw [heads_cons, List.nodup_cons, mem_heads]
      refine ⟨?_, ih⟩
      rintro ⟨production, hproduction, hlhs⟩
      exact (mem_others.mp hproduction).2 hlhs

/-! ## Regrouping -/

theorem regroup_cons (first : Production) (rest : List Production) :
    regroup (first :: rest) =
      first :: (group first.lhs rest ++ regroup (others first.lhs rest)) := by
  have hothers : (heads (others first.lhs rest)).flatMap (fun lhs => group lhs (first :: rest)) =
      regroup (others first.lhs rest) := by
    apply List.flatMap_congr
    intro lhs hlhs
    obtain ⟨production, hproduction, rfl⟩ := mem_heads.mp hlhs
    have hne := (mem_others.mp hproduction).2
    rw [group_others hne, group_cons_of_ne hne.symm]
  rw [regroup, heads_cons, List.flatMap_cons, group_cons_of_eq rfl, hothers, List.cons_append]

theorem mem_regroup {production : Production} :
    production ∈ regroup productions ↔ production ∈ productions := by
  simp only [regroup, List.mem_flatMap, mem_heads, mem_group]
  constructor
  · rintro ⟨_, _, hproduction, _⟩
    exact hproduction
  · exact fun h => ⟨production.lhs, ⟨production, h, rfl⟩, h, rfl⟩

private theorem lhs_ne_of_mem_regroup_others {production : Production}
    (h : production ∈ regroup (others lhs productions)) : production.lhs ≠ lhs :=
  (mem_others.mp (mem_regroup.mp h)).2

/-- Each group is as it was. -/
theorem group_regroup (lhs : Symbol) (productions : List Production) :
    group lhs (regroup productions) = group lhs productions := by
  induction productions using heads_induct with
  | nil => rfl
  | cons first rest ih =>
      rw [regroup_cons]
      by_cases hsame : first.lhs = lhs
      · subst hsame
        rw [group_cons_of_eq rfl, group_cons_of_eq rfl, group_append,
          group_eq_self fun production hproduction => (mem_group.mp hproduction).2,
          group_eq_nil fun production hproduction => lhs_ne_of_mem_regroup_others hproduction,
          List.append_nil]
      · have hnone : group lhs (group first.lhs rest) = [] :=
          group_eq_nil fun production hproduction => by rwa [(mem_group.mp hproduction).2]
        rw [group_cons_of_ne hsame, group_cons_of_ne hsame, group_append, hnone, List.nil_append, ih,
          group_others (Ne.symm hsame)]

/-- And the groups come in the same order. -/
theorem heads_regroup (productions : List Production) :
    heads (regroup productions) = heads productions := by
  induction productions using heads_induct with
  | nil => rfl
  | cons first rest ih =>
      rw [regroup_cons, heads_cons, heads_cons, others_append,
        others_eq_nil fun production hproduction => (mem_group.mp hproduction).2,
        others_eq_self fun production hproduction => lhs_ne_of_mem_regroup_others hproduction,
        List.nil_append, ih]

/-! ## Groups that stand together -/

/-- A group that stands before all others is the first part of a list. -/
theorem group_append_others
    (h : productions.Pairwise fun earlier later => later.lhs = lhs → earlier.lhs = lhs) :
    group lhs productions ++ others lhs productions = productions := by
  induction productions with
  | nil => rfl
  | cons first rest ih =>
      obtain ⟨hfirst, hrest⟩ := List.pairwise_cons.mp h
      by_cases hsame : first.lhs = lhs
      · rw [group_cons_of_eq hsame, others_cons_of_eq hsame, List.cons_append, ih hrest]
      · have hnone : ∀ production ∈ first :: rest, production.lhs ≠ lhs := by
          intro production hproduction
          rcases List.mem_cons.mp hproduction with rfl | hlater
          · exact hsame
          · exact fun hlhs => hsame (hfirst production hlater hlhs)
        rw [group_eq_nil hnone, others_eq_self hnone, List.nil_append]

theorem contiguous_regroup (productions : List Production) : Contiguous (regroup productions) := by
  induction productions using heads_induct with
  | nil =>
      intro first middle last hsublist
      cases hsublist
  | cons first rest ih =>
      -- of three productions in order some may be in the first group, and the last ones behind it
      intro one two three hsublist hsame
      have hgroup : ∀ production ∈ first :: group first.lhs rest,
          production.lhs = first.lhs := by
        intro production hproduction
        rcases List.mem_cons.mp hproduction with rfl | hproduction
        · rfl
        · exact (mem_group.mp hproduction).2
      have hbehind : ∀ production ∈ regroup (others first.lhs rest),
          production.lhs ≠ first.lhs := fun _ => lhs_ne_of_mem_regroup_others
      rw [regroup_cons, ← List.cons_append, List.sublist_append_iff] at hsublist
      obtain ⟨front, back, hsplit, hfront, hback⟩ := hsublist
      match front, hsplit with
      | [], hsplit =>
          cases hsplit
          exact ih one two three hback hsame
      | [_], hsplit =>
          cases hsplit
          have hone := hgroup one (hfront.subset (by simp))
          exact absurd (hsame.symm.trans hone) (hbehind three (hback.subset (by simp)))
      | _ :: _ :: _, hsplit =>
          simp only [List.cons_append, List.cons.injEq] at hsplit
          obtain ⟨rfl, rfl, _⟩ := hsplit
          exact (hgroup two (hfront.subset (by simp))).trans
            (hgroup one (hfront.subset (by simp))).symm

/-- Regrouping leaves those productions as they are that stand in groups already. -/
theorem regroup_eq_self_iff : regroup productions = productions ↔ Contiguous productions := by
  refine ⟨fun h => h ▸ contiguous_regroup productions, fun h => ?_⟩
  induction productions using heads_induct with
  | nil => rfl
  | cons first rest ih =>
      have hrest : rest.Pairwise fun earlier later =>
          later.lhs = first.lhs → earlier.lhs = first.lhs := by
        rw [List.pairwise_iff_forall_sublist]
        intro earlier later hsublist hlater
        exact h first earlier later (hsublist.cons_cons first) hlater.symm
      have hothers : Contiguous (others first.lhs rest) := fun one two three hsublist =>
        h one two three (hsublist.trans (List.filter_sublist.trans (List.sublist_cons_self _ _)))
      rw [regroup_cons, ih hothers, group_append_others hrest]

instance : Decidable (Contiguous productions) := decidable_of_iff _ regroup_eq_self_iff

end TableParsing.GrammarText
