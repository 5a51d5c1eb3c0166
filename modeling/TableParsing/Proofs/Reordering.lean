import Mathlib.Data.Fin.Basic
import Mathlib.Data.List.Perm.Basic
import Mathlib.Logic.Equiv.Basic
import TableParsing.Proofs.Sets.Adjacency

/-!
# Reordered productions

Derivations ask which productions there are, not in which order they are listed.
Grammars with the same productions therefore have the same terminals, nonterminals
and sentences, and since FIRST and FOLLOW sets hold what derivations make them
hold, the same sets as well, whatever the passes did in between
(`SameProductions.first_eq`, `SameProductions.follow_eq`).

A permutation of the list gives every production another number.
`Grammar.Renumbers` relates the old numbers to the new ones; it extends to the
augmented grammars, where the added production is the last of both lists.
-/

namespace TableParsing

namespace Grammar

variable {grammar grammar' : Grammar}

/-! ## The same productions -/

/-- Two grammars have one start symbol and the same productions, in whatever order. -/
structure SameProductions (grammar grammar' : Grammar) : Prop where
  start : grammar.start = grammar'.start
  mem : ∀ production, production ∈ grammar.productions ↔ production ∈ grammar'.productions

namespace SameProductions

theorem symm (h : SameProductions grammar grammar') : SameProductions grammar' grammar :=
  ⟨h.start.symm, fun production => (h.mem production).symm⟩

theorem terminals_eq (h : SameProductions grammar grammar') :
    grammar.terminals = grammar'.terminals := by
  apply SortedSet.ext_mem
  intro symbol
  simp only [terminals, SortedSet.mem_ofList, List.mem_filter, List.mem_flatMap, h.mem]

theorem nonterminals_eq (h : SameProductions grammar grammar') :
    grammar.nonterminals = grammar'.nonterminals := by
  apply SortedSet.ext_mem
  intro symbol
  simp only [mem_nonterminals, h.mem]

theorem derives (h : SameProductions grammar grammar') {first second : List Symbol}
    (hderives : grammar.Derives first second) : grammar'.Derives first second := by
  induction hderives with
  | refl => exact Derives.refl _
  | tail _ hstep ih =>
      obtain ⟨hproduction, before, after⟩ := hstep
      exact ih.trans (derives_body ((h.mem _).mp hproduction) before after)

theorem isSentence_iff (h : SameProductions grammar grammar') {atoms : List String} :
    grammar.IsSentence atoms ↔ grammar'.IsSentence atoms := by
  rw [IsSentence, IsSentence, h.start]
  exact ⟨h.derives, h.symm.derives⟩

theorem begins (h : SameProductions grammar grammar') {symbols : List Symbol} {member : Symbol}
    (hbegins : grammar.Begins symbols member) : grammar'.Begins symbols member := by
  cases hbegins with
  | terminal hderives => exact .terminal (h.derives hderives)
  | epsilon hderives => exact .epsilon (h.derives hderives)

theorem adjoins (h : SameProductions grammar grammar') {symbol member : Symbol}
    (hadjoins : grammar.Adjoins symbol member) : grammar'.Adjoins symbol member := by
  cases hadjoins with
  | terminal horigin hderives =>
      exact .terminal (h.nonterminals_eq ▸ horigin) (h.derives hderives)
  | endMarker hderives => exact .endMarker (h.start ▸ h.derives hderives)

theorem first_eq (h : SameProductions grammar grammar') :
    FirstSets.ofGrammar grammar = FirstSets.ofGrammar grammar' := by
  have hfamily : (FirstSets.ofGrammar grammar).family = (FirstSets.ofGrammar grammar').family := by
    apply SymbolFamily.ext_setOf
    · intro symbol
      simp only [FirstSets.mem_keys_ofGrammar, h.terminals_eq, h.nonterminals_eq]
    · intro symbol hsymbol member
      have hown := FirstSets.mem_keys_ofGrammar.mp hsymbol
      have hother : symbol ∈ grammar'.terminals ∨ symbol ∈ grammar'.nonterminals := by
        rwa [h.terminals_eq, h.nonterminals_eq] at hown
      exact (FirstSets.mem_setOf_iff_begins hown).trans
        (Iff.trans ⟨h.begins, h.symm.begins⟩ (FirstSets.mem_setOf_iff_begins hother).symm)
  exact congrArg FirstSets.mk hfamily

theorem follow_eq (h : SameProductions grammar grammar') :
    FollowSets.ofGrammar grammar (FirstSets.ofGrammar grammar) =
      FollowSets.ofGrammar grammar' (FirstSets.ofGrammar grammar') := by
  have hfamily : (FollowSets.ofGrammar grammar (FirstSets.ofGrammar grammar)).family =
      (FollowSets.ofGrammar grammar' (FirstSets.ofGrammar grammar')).family := by
    apply SymbolFamily.ext_setOf
    · intro symbol
      simp only [FollowSets.mem_keys_ofGrammar, h.nonterminals_eq]
    · intro symbol hsymbol member
      have hown := FollowSets.mem_keys_ofGrammar.mp hsymbol
      have hother : symbol ∈ grammar'.nonterminals := h.nonterminals_eq ▸ hown
      exact (FollowSets.mem_ofGrammar_iff_adjoins hown).trans
        (Iff.trans ⟨h.adjoins, h.symm.adjoins⟩ (FollowSets.mem_ofGrammar_iff_adjoins hother).symm)
  exact congrArg FollowSets.mk hfamily

theorem augmentedStart_eq (h : SameProductions grammar grammar') :
    grammar.augmentedStart = grammar'.augmentedStart := by
  rw [augmentedStart, augmentedStart, h.nonterminals_eq, h.start]

end SameProductions

/-! ## New numbers -/

/-- The rules of one grammar under other numbers are the rules of another one. -/
structure Renumbers (renumber : Equiv.Perm ℕ) (grammar grammar' : Grammar) : Prop where
  start : grammar.start = grammar'.start
  length : grammar.productions.length = grammar'.productions.length
  production? : ∀ rule, grammar'.production? (renumber rule) = grammar.production? rule
  /-- Numbers that no rule has are kept. -/
  fixed : ∀ rule, grammar.productions.length ≤ rule → renumber rule = rule

namespace Renumbers

variable {renumber : Equiv.Perm ℕ}

theorem symm (h : Renumbers renumber grammar grammar') :
    Renumbers renumber.symm grammar' grammar where
  start := h.start.symm
  length := h.length.symm
  production? rule := by rw [← h.production?, Equiv.apply_symm_apply]
  fixed rule hrule := by rw [Equiv.symm_apply_eq, h.fixed rule (h.length ▸ hrule)]

theorem same (h : Renumbers renumber grammar grammar') : SameProductions grammar grammar' where
  start := h.start
  mem production := by
    constructor
    · intro hmem
      obtain ⟨rule, hrule⟩ := exists_production?_of_mem hmem
      exact mem_of_production? ((h.production? rule).trans hrule)
    · intro hmem
      obtain ⟨rule, hrule⟩ := exists_production?_of_mem hmem
      exact mem_of_production? ((h.symm.production? rule).trans hrule)

theorem startRule_eq (h : Renumbers renumber grammar grammar') :
    renumber grammar.startRule = grammar'.startRule :=
  (h.fixed _ (Nat.le_refl _)).trans h.length

theorem augmented (h : Renumbers renumber grammar grammar') :
    Renumbers renumber grammar.augmented grammar'.augmented where
  start := h.same.augmentedStart_eq
  length := by simp only [Grammar.augmented, List.length_append, List.length_singleton, h.length]
  production? rule := by
    have hadded : grammar.startProduction = grammar'.startProduction := by
      rw [startProduction, startProduction, h.same.augmentedStart_eq, h.start]
    by_cases hrule : rule < grammar.productions.length
    · have hrenumbered : renumber rule < grammar'.productions.length := by
        apply lt_of_production?
        rw [h.production?]
        exact List.getElem?_eq_getElem hrule
      simp only [Grammar.production?, Grammar.augmented]
      rw [List.getElem?_append_left hrule, List.getElem?_append_left hrenumbered]
      exact h.production? rule
    · simp only [Grammar.production?, Grammar.augmented]
      rw [h.fixed rule (Nat.le_of_not_lt hrule), hadded,
        List.getElem?_append_right (Nat.le_of_not_lt hrule), h.length,
        List.getElem?_append_right (h.length ▸ Nat.le_of_not_lt hrule)]
  fixed rule hrule := by
    apply h.fixed
    simp only [Grammar.augmented, List.length_append] at hrule
    omega

theorem body_eq (h : Renumbers renumber grammar grammar') (rule : Nat) :
    grammar'.body (renumber rule) = grammar.body rule := by
  rw [body, body, h.production?]

theorem mem_rulesFor_iff (h : Renumbers renumber grammar grammar') {symbol : Symbol} {rule : Nat} :
    renumber rule ∈ grammar'.rulesFor symbol ↔ rule ∈ grammar.rulesFor symbol := by
  rw [mem_rulesFor, mem_rulesFor, h.production?]

end Renumbers

/-- The places of a list's members after a permutation; what is no place stays as it is. -/
private theorem exists_renumber_of_perm {α : Type} [DecidableEq α] {members members' : List α}
    (h : members.Perm members') : ∃ renumber : Equiv.Perm ℕ,
      (∀ place, members'[renumber place]? = members[place]?) ∧
        ∀ place, members.length ≤ place → renumber place = place := by
  have hlength : members.length = members'.length := h.length_eq
  let places : Fin members.length ≃ Fin members'.length :=
    { toFun := h.idxBij
      invFun := h.symm.idxBij
      left_inv := h.idxBij_rightInverse_idxBij_symm
      right_inv := h.idxBij_leftInverse_idxBij_symm }
  let own : Equiv.Perm (Fin members.length) := places.trans (finCongr hlength.symm)
  let renumber : Equiv.Perm ℕ := own.extendDomain Fin.equivSubtype
  have hfixed : ∀ place, members.length ≤ place → renumber place = place := fun place hplace =>
    own.extendDomain_apply_not_subtype Fin.equivSubtype (Nat.not_lt.mpr hplace)
  refine ⟨renumber, fun place => ?_, hfixed⟩
  by_cases hplace : place < members.length
  · have hrenumber : renumber place = (h.idxBij ⟨place, hplace⟩ : Nat) :=
      own.extendDomain_apply_image Fin.equivSubtype ⟨place, hplace⟩
    rw [hrenumber, List.getElem?_eq_getElem (h.idxBij ⟨place, hplace⟩).isLt,
      List.getElem?_eq_getElem hplace, h.getElem_idxBij_eq_getElem]
  · rw [hfixed place (Nat.le_of_not_lt hplace), List.getElem?_eq_none (by omega),
      List.getElem?_eq_none (by omega)]

theorem exists_renumbers_of_perm (hstart : grammar.start = grammar'.start)
    (h : grammar.productions.Perm grammar'.productions) :
    ∃ renumber, Renumbers renumber grammar grammar' := by
  obtain ⟨renumber, hplaces, hfixed⟩ := exists_renumber_of_perm h
  exact ⟨renumber, hstart, h.length_eq, hplaces, hfixed⟩

end Grammar

end TableParsing
