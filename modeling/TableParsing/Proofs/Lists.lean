import Mathlib.Data.List.Forall2

/-!
# Lists

A member of two lists, one behind the other, stands in one of them
(`append_eq_append_cons_iff`).  A list whose members are made into something, each of
them with a result or an error, is made if all members can be (`mapM_eq_ok_iff`), and
otherwise it is refused for the first that cannot (`mapM_eq_error_iff`).
-/

namespace TableParsing

variable {ε α β : Type}

theorem append_eq_append_cons_iff {first second front rest : List α} {member : α} :
    first ++ second = front ++ member :: rest ↔
      (∃ between, first = front ++ member :: between ∧ rest = between ++ second) ∨
        ∃ between, front = first ++ between ∧ second = between ++ member :: rest := by
  rw [List.append_eq_append_iff]
  constructor
  · rintro (hbehind | ⟨between, hfirst, hrest⟩)
    · exact .inr hbehind
    · cases between with
      | nil => exact .inr ⟨[], by simpa using hfirst.symm, hrest.symm⟩
      | cons head between =>
          obtain ⟨rfl, hbehind⟩ := List.cons.inj hrest
          exact .inl ⟨between, hfirst, hbehind⟩
  · rintro (⟨between, hfirst, hrest⟩ | hbehind)
    · exact .inr ⟨member :: between, hfirst, by rw [hrest, List.cons_append]⟩
    · exact .inl hbehind

/-- A sequence of results was made if and only if each of them was. -/
theorem mapM_eq_ok_iff {make : α → Except ε β} {parts : List α} {made : List β} :
    parts.mapM make = .ok made ↔ List.Forall₂ (fun part result => make part = .ok result) parts made := by
  induction parts generalizing made with
  | nil => simp [pure, Except.pure, eq_comm]
  | cons part rest ih =>
      rw [List.mapM_cons, List.forall₂_cons_left_iff]
      cases hpart : make part with
      | error error => simp [bind, Except.bind]
      | ok result =>
          cases hrest : rest.mapM make with
          | error error =>
              rw [hrest] at ih
              simp [bind, Except.bind, ← ih]
          | ok results =>
              rw [hrest] at ih
              simp [bind, Except.bind, pure, Except.pure, ← ih, eq_comm]

/-- A sequence of results is refused for the first of them that cannot be made. -/
theorem mapM_eq_error_iff {make : α → Except ε β} {parts : List α} {error : ε} :
    parts.mapM make = .error error ↔ ∃ before part after, parts = before ++ part :: after ∧
      (∀ other ∈ before, ∃ result, make other = .ok result) ∧ make part = .error error := by
  induction parts with
  | nil => simp [pure, Except.pure]
  | cons first rest ih =>
      have hcons : (∃ before part after, first :: rest = before ++ part :: after ∧
          (∀ other ∈ before, ∃ result, make other = .ok result) ∧ make part = .error error) ↔
          make first = .error error ∨ (∃ result, make first = .ok result) ∧
            ∃ before part after, rest = before ++ part :: after ∧
              (∀ other ∈ before, ∃ result, make other = .ok result) ∧ make part = .error error := by
        constructor
        · rintro ⟨before, part, after, hsplit, hbefore, hpart⟩
          rcases List.cons_eq_append_iff.mp hsplit with ⟨rfl, hhead⟩ | ⟨others, rfl, hrest⟩
          · cases hhead
            exact .inl hpart
          · obtain ⟨hfirst, hothers⟩ := List.forall_mem_cons.mp hbefore
            exact .inr ⟨hfirst, others, part, after, hrest, hothers, hpart⟩
        · rintro (hfirst | ⟨hfirst, before, part, after, rfl, hbefore, hpart⟩)
          · exact ⟨[], first, rest, rfl, List.forall_mem_nil _, hfirst⟩
          · exact ⟨first :: before, part, after, rfl, List.forall_mem_cons.mpr ⟨hfirst, hbefore⟩, hpart⟩
      rw [hcons, ← ih, List.mapM_cons]
      cases make first with
      | error other => simp [bind, Except.bind]
      | ok result => cases rest.mapM make <;> simp [bind, Except.bind, pure, Except.pure]

end TableParsing
