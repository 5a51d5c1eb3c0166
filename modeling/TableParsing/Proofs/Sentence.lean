import TableParsing.Proofs.ParseTree
import TableParsing.Proofs.Runs

/-!
# Sentences as input

A parser first classifies the atoms that it is given, and runs on the word that
they make: it ends with a verdict (`Machine.Answers`) or goes on for ever
(`Machine.Diverges`).  An input that is refused before it runs is no sentence:
terminals of productions are never spelled like symbols of another kind, so every
atom of a sentence stands for a terminal (`IsSentence.exists_word`).  What is left
to the parsers is the word itself.
-/

namespace TableParsing

theorem Symbol.eq_of_classify_eq_terminal {atom spelling : String}
    (h : classify atom = .terminal spelling) : spelling = atom := by
  unfold classify at h
  split at h
  · cases h
  · cases h
  · split at h
    · cases h
    · cases h
      rfl
  · cases h
    rfl

namespace Word

theorem eq_map_of_ofAtoms? {atoms : List String} {word : List Symbol}
    (h : ofAtoms? atoms = some word) : word = atoms.map Symbol.terminal := by
  induction atoms generalizing word with
  | nil =>
      cases h
      rfl
  | cons atom rest ih =>
      unfold ofAtoms? at h
      split at h
      · rename_i spelling hclass
        obtain ⟨others, hothers, rfl⟩ := Option.map_eq_some_iff.mp h
        rw [ih hothers, Symbol.eq_of_classify_eq_terminal hclass, List.map_cons]
      · cases h

theorem isWord_of_ofAtoms? {atoms : List String} {word : List Symbol}
    (h : ofAtoms? atoms = some word) : IsWord word :=
  eq_map_of_ofAtoms? h ▸ isWord_map_terminal atoms

theorem exists_word {atoms : List String}
    (h : ∀ atom ∈ atoms, (Symbol.classify atom).isTerminal = true) :
    ∃ word, ofAtoms? atoms = some word := by
  induction atoms with
  | nil => exact ⟨[], rfl⟩
  | cons atom rest ih =>
      obtain ⟨word, hword⟩ := ih fun other hother => h other (List.mem_cons_of_mem _ hother)
      have hatom := h atom List.mem_cons_self
      unfold ofAtoms?
      cases hclass : Symbol.classify atom with
      | terminal spelling => exact ⟨.terminal spelling :: word, by simp [hword]⟩
      | epsilon | nonterminal | endMarker =>
          rw [hclass] at hatom
          cases hatom

end Word

/-- A machine ends on a list of atoms with a verdict; an input that is no word is refused. -/
def Machine.Answers {σ μ : Type} (step : σ → Step σ μ) (start : List Symbol → σ)
    (atoms : List String) (accepted : Bool) : Prop :=
  match Word.ofAtoms? atoms with
  | some word => Halts step (start word) accepted
  | none => accepted = false

/-- A machine never ends on a list of atoms; an input that is no word is refused at once. -/
def Machine.Diverges {σ μ : Type} (step : σ → Step σ μ) (start : List Symbol → σ)
    (atoms : List String) : Prop :=
  match Word.ofAtoms? atoms with
  | some word => Forever step (start word)
  | none => False

section Input

variable {σ μ : Type} {step : σ → Step σ μ} {start : List Symbol → σ} {atoms : List String}

theorem Machine.Answers.unique {first second : Bool} (h : Answers step start atoms first)
    (h' : Answers step start atoms second) : first = second := by
  unfold Answers at h h'
  split at h
  · rename_i hatoms
    rw [hatoms] at h'
    exact Halts.unique h h'
  · rename_i hatoms
    rw [hatoms] at h'
    rw [h, h']

theorem Machine.Answers.not_diverges {accepted : Bool} (h : Answers step start atoms accepted) :
    ¬ Diverges step start atoms := by
  intro hdiverges
  unfold Diverges at hdiverges
  unfold Answers at h
  split at h
  · rename_i hatoms
    rw [hatoms] at hdiverges
    exact not_halts_of_forever hdiverges h
  · rename_i hatoms
    rw [hatoms] at hdiverges
    exact hdiverges

end Input

namespace Grammar

variable {grammar : Grammar}

/-- No derivation brings in a terminal that is spelled like a symbol of another kind. -/
theorem Derives.not_isReserved {form : List Symbol} (h : grammar.Derives [grammar.start] form) :
    ∀ symbol ∈ form, Production.isReserved symbol = false := by
  apply h.forall_mem (motive := fun symbol => Production.isReserved symbol = false)
  · intro symbol hsymbol
    have hkind := grammar.start_isNonterminal
    rw [← List.mem_singleton.mp hsymbol] at hkind
    cases symbol with
    | nonterminal atom => rfl
    | epsilon | terminal | endMarker => cases hkind
  · intro production hproduction symbol hsymbol
    exact (grammar.wellFormed.valid production hproduction).not_isReserved symbol
      (mem_rhs_of_mem_body hsymbol)

theorem IsSentence.exists_word {atoms : List String} (h : grammar.IsSentence atoms) :
    ∃ word, Word.ofAtoms? atoms = some word := by
  apply Word.exists_word
  intro atom hatom
  -- the validity of productions excludes terminals that would be classified otherwise
  have hreserved := Derives.not_isReserved h (.terminal atom) (List.mem_map_of_mem hatom)
  simpa [Production.isReserved, Symbol.isTerminal, Symbol.atom] using hreserved

theorem isSentence_iff_of_ofAtoms? {atoms : List String} {word : List Symbol}
    (h : Word.ofAtoms? atoms = some word) :
    grammar.IsSentence atoms ↔ grammar.Derives [grammar.start] word := by
  rw [IsSentence, Word.eq_map_of_ofAtoms? h]

end Grammar

end TableParsing
