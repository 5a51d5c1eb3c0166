import Mathlib.Logic.Relation
import TableParsing.Grammar.Augmented
import TableParsing.Word

/-!
# Derivations

What a grammar means.  A step of a derivation replaces one occurrence of a
left-hand side by a body of it (`Grammar.Produces`), a derivation is any number
of such steps (`Grammar.Derives`), and a list of atoms is a sentence if the
start symbol derives the terminals that it spells (`Grammar.IsSentence`).

Everything else in this file is context: derivations may be carried out beside
other symbols and one after the other, and words of terminals derive nothing but
themselves.
-/

namespace TableParsing

/-- Whether a string consists of terminals. -/
def IsWord (symbols : List Symbol) : Prop := ∀ symbol ∈ symbols, symbol.isTerminal = true

theorem isWord_nil : IsWord [] := fun _ h => nomatch h

theorem isWord_cons {symbol : Symbol} {rest : List Symbol} :
    IsWord (symbol :: rest) ↔ symbol.isTerminal = true ∧ IsWord rest := by
  simp [IsWord]

theorem isWord_append {first second : List Symbol} :
    IsWord (first ++ second) ↔ IsWord first ∧ IsWord second := by
  simp only [IsWord, List.mem_append]
  exact ⟨fun h => ⟨fun s hs => h s (.inl hs), fun s hs => h s (.inr hs)⟩,
    fun h s hs => hs.elim (h.1 s) (h.2 s)⟩

theorem isWord_map_terminal (atoms : List String) : IsWord (atoms.map Symbol.terminal) := by
  intro symbol hsymbol
  obtain ⟨atom, _, rfl⟩ := List.mem_map.mp hsymbol
  rfl

theorem Symbol.exists_eq_nonterminal {symbol : Symbol} (h : symbol.isNonterminal = true) :
    ∃ name, symbol = .nonterminal name := by
  cases symbol with
  | nonterminal name => exact ⟨name, rfl⟩
  | epsilon | terminal | endMarker => cases h

theorem Symbol.not_isTerminal_of_isNonterminal {symbol : Symbol}
    (h : symbol.isNonterminal = true) : ¬ symbol.isTerminal = true := by
  obtain ⟨name, rfl⟩ := Symbol.exists_eq_nonterminal h
  exact Bool.false_ne_true

namespace Grammar

/-! ## Productions and their numbers -/

variable {grammar : Grammar}

theorem mem_of_production? {rule : Nat} {production : Production}
    (h : grammar.production? rule = some production) : production ∈ grammar.productions :=
  List.mem_of_getElem? h

theorem lt_of_production? {rule : Nat} {production : Production}
    (h : grammar.production? rule = some production) : rule < grammar.productions.length :=
  (List.getElem?_eq_some_iff.mp h).1

theorem exists_production?_of_mem {production : Production}
    (h : production ∈ grammar.productions) : ∃ rule, grammar.production? rule = some production :=
  List.mem_iff_getElem?.mp h

theorem body_of_production? {rule : Nat} {production : Production}
    (h : grammar.production? rule = some production) : grammar.body rule = production.body := by
  simp only [body, h]

theorem lhs_isNonterminal {production : Production} (h : production ∈ grammar.productions) :
    production.lhs.isNonterminal = true :=
  (grammar.wellFormed.valid production h).lhs_isNonterminal

theorem mem_rhs_of_mem_body {production : Production} {symbol : Symbol}
    (h : symbol ∈ production.body) : symbol ∈ production.rhs := by
  unfold Production.body at h
  split at h
  · cases h
  · exact h

/-- In a body stand terminals and nonterminals only. -/
theorem terminal_or_nonterminal_of_mem_body {production : Production}
    (h : production ∈ grammar.productions) {symbol : Symbol} (hsymbol : symbol ∈ production.body) :
    symbol.isTerminal = true ∨ symbol.isNonterminal = true := by
  have hvalid := grammar.wellFormed.valid production h
  have hrhs := mem_rhs_of_mem_body hsymbol
  cases symbol with
  | terminal atom => exact .inl rfl
  | nonterminal atom => exact .inr rfl
  | endMarker => exact absurd hrhs hvalid.endMarker_not_mem
  | epsilon =>
      have halone := hvalid.epsilon_alone hrhs
      simp [Production.body, Production.isEpsilon, halone] at hsymbol

theorem mem_nonterminals {symbol : Symbol} :
    symbol ∈ grammar.nonterminals ↔
      ∃ production ∈ grammar.productions, production.lhs = symbol := by
  simp only [nonterminals, SortedSet.mem_ofList, List.mem_map]

theorem mem_nonterminals_of_mem_body {production : Production}
    (h : production ∈ grammar.productions) {symbol : Symbol} (hsymbol : symbol ∈ production.body)
    (hkind : symbol.isNonterminal = true) : symbol ∈ grammar.nonterminals :=
  mem_nonterminals.mpr
    (grammar.wellFormed.nonterminals_defined production h symbol (mem_rhs_of_mem_body hsymbol)
      hkind)

theorem mem_terminals {symbol : Symbol} : symbol ∈ grammar.terminals ↔
    symbol.isTerminal = true ∧ ∃ production ∈ grammar.productions, symbol ∈ production.rhs := by
  simp only [terminals, SortedSet.mem_ofList, List.mem_filter, List.mem_flatMap, and_comm]

theorem start_mem_nonterminals : grammar.start ∈ grammar.nonterminals :=
  mem_nonterminals.mpr grammar.wellFormed.start_defined

theorem mem_rulesFor {symbol : Symbol} {rule : Nat} :
    rule ∈ grammar.rulesFor symbol ↔
      ∃ production, grammar.production? rule = some production ∧ production.lhs = symbol := by
  simp only [rulesFor, List.mem_map, List.mem_filter, beq_iff_eq, Prod.exists, production?]
  constructor
  · rintro ⟨production, index, ⟨hmem, hlhs⟩, rfl⟩
    exact ⟨production, List.mem_zipIdx_iff_getElem?.mp hmem, hlhs⟩
  · rintro ⟨production, hproduction, hlhs⟩
    exact ⟨production, rule, ⟨List.mem_zipIdx_iff_getElem?.mpr hproduction, hlhs⟩, rfl⟩

private theorem le_foldl_max (lengths : List Nat) (start : Nat) :
    start ≤ lengths.foldl max start ∧ ∀ length ∈ lengths, length ≤ lengths.foldl max start := by
  induction lengths generalizing start with
  | nil => simp
  | cons first rest ih =>
      obtain ⟨hstart, hrest⟩ := ih (max start first)
      rw [List.foldl_cons]
      refine ⟨Nat.le_trans (Nat.le_max_left _ _) hstart, fun length hlength => ?_⟩
      rcases List.mem_cons.mp hlength with rfl | hlength
      · exact Nat.le_trans (Nat.le_max_right _ _) hstart
      · exact hrest length hlength

theorem length_body_le {production : Production} (h : production ∈ grammar.productions) :
    production.body.length ≤ grammar.longestBody :=
  (le_foldl_max _ 0).2 _ (List.mem_map_of_mem h)

/-! ## Derivations -/

variable (grammar)

/-- One step of a derivation: an occurrence of a left-hand side is replaced by a body. -/
inductive Produces : List Symbol → List Symbol → Prop
  | replace {production : Production} (h : production ∈ grammar.productions)
      (before after : List Symbol) :
      Produces (before ++ production.lhs :: after) (before ++ production.body ++ after)

/-- Any number of steps of a derivation. -/
def Derives : List Symbol → List Symbol → Prop := Relation.ReflTransGen grammar.Produces

/-- The start symbol derives the terminals with these atoms. -/
def IsSentence (atoms : List String) : Prop :=
  grammar.Derives [grammar.start] (atoms.map Symbol.terminal)

/-- Every nonterminal derives a string of terminals. -/
def Productive : Prop :=
  ∀ symbol ∈ grammar.nonterminals, ∃ word, IsWord word ∧ grammar.Derives [symbol] word

variable {grammar} {first second third fourth : List Symbol}

theorem Derives.refl (symbols : List Symbol) : grammar.Derives symbols symbols :=
  Relation.ReflTransGen.refl

theorem Derives.trans (h : grammar.Derives first second) (h' : grammar.Derives second third) :
    grammar.Derives first third :=
  Relation.ReflTransGen.trans h h'

theorem Produces.inContext (h : grammar.Produces first second) (before after : List Symbol) :
    grammar.Produces (before ++ first ++ after) (before ++ second ++ after) := by
  obtain ⟨hproduction, left, right⟩ := h
  simpa only [List.append_assoc, List.cons_append] using
    Produces.replace hproduction (before ++ left) (right ++ after)

theorem Derives.inContext (h : grammar.Derives first second) (before after : List Symbol) :
    grammar.Derives (before ++ first ++ after) (before ++ second ++ after) := by
  induction h with
  | refl => exact Derives.refl _
  | tail _ hstep ih => exact ih.trans (.single (hstep.inContext before after))

theorem Derives.append_left (h : grammar.Derives first second) (before : List Symbol) :
    grammar.Derives (before ++ first) (before ++ second) := by
  simpa using h.inContext before []

theorem Derives.append_right (h : grammar.Derives first second) (after : List Symbol) :
    grammar.Derives (first ++ after) (second ++ after) := by
  simpa using h.inContext [] after

theorem Derives.append (h : grammar.Derives first second) (h' : grammar.Derives third fourth) :
    grammar.Derives (first ++ third) (second ++ fourth) :=
  (h.append_right third).trans (h'.append_left second)

theorem Derives.cons (h : grammar.Derives first second) (symbol : Symbol) :
    grammar.Derives (symbol :: first) (symbol :: second) :=
  h.append_left [symbol]

theorem derives_body {production : Production} (h : production ∈ grammar.productions)
    (before after : List Symbol) :
    grammar.Derives (before ++ production.lhs :: after) (before ++ production.body ++ after) :=
  .single (.replace h before after)

/-- What follows from all steps along a derivation holds of its end. -/
theorem Derives.preserves {motive : List Symbol → Prop} (h : grammar.Derives first second)
    (start : motive first)
    (step : ∀ form next, grammar.Produces form next → motive form → motive next) :
    motive second := by
  induction h with
  | refl => exact start
  | tail _ hstep ih => exact step _ _ hstep ih

/-- What holds of the symbols of a string and of all bodies holds of what is derived. -/
theorem Derives.forall_mem {motive : Symbol → Prop} (h : grammar.Derives first second)
    (hfirst : ∀ symbol ∈ first, motive symbol)
    (hbody : ∀ production ∈ grammar.productions, ∀ symbol ∈ production.body, motive symbol) :
    ∀ symbol ∈ second, motive symbol := by
  refine h.preserves (motive := fun form => ∀ symbol ∈ form, motive symbol) hfirst ?_
  rintro _ _ @⟨production, hproduction, before, after⟩ hform symbol hsymbol
  simp only [List.mem_append] at hsymbol
  rcases hsymbol with (hbefore | hin) | hafter
  · exact hform symbol (List.mem_append_left _ hbefore)
  · exact hbody production hproduction symbol hin
  · exact hform symbol (List.mem_append_right _ (List.mem_cons_of_mem _ hafter))

/-- The terminals of what a nonterminal derives are terminals of the grammar. -/
theorem Derives.mem_terminals_of_mem_nonterminals {origin : Symbol} {form : List Symbol}
    (h : grammar.Derives [origin] form) (horigin : origin ∈ grammar.nonterminals) :
    ∀ symbol ∈ form, symbol.isTerminal = true → symbol ∈ grammar.terminals := by
  apply h.forall_mem (motive := fun symbol => symbol.isTerminal = true → symbol ∈ grammar.terminals)
  · intro symbol hsymbol hterminal
    obtain ⟨production, hproduction, hlhs⟩ := mem_nonterminals.mp horigin
    have hkind := lhs_isNonterminal hproduction
    rw [hlhs, ← List.mem_singleton.mp hsymbol] at hkind
    exact absurd hterminal (Symbol.not_isTerminal_of_isNonterminal hkind)
  · intro production hproduction symbol hsymbol hterminal
    exact mem_terminals.mpr ⟨hterminal, production, hproduction, mem_rhs_of_mem_body hsymbol⟩

theorem Derives.mem_terminals {form : List Symbol} (h : grammar.Derives [grammar.start] form) :
    ∀ symbol ∈ form, symbol.isTerminal = true → symbol ∈ grammar.terminals :=
  h.mem_terminals_of_mem_nonterminals start_mem_nonterminals

/-- A string of symbols that derive words derives a word. -/
private theorem exists_word_of_forall {symbols : List Symbol}
    (h : ∀ symbol ∈ symbols, ∃ word, IsWord word ∧ grammar.Derives [symbol] word) :
    ∃ word, IsWord word ∧ grammar.Derives symbols word := by
  induction symbols with
  | nil => exact ⟨[], isWord_nil, Derives.refl _⟩
  | cons symbol rest ih =>
      obtain ⟨front, hfront, hsymbol⟩ := h symbol List.mem_cons_self
      obtain ⟨word, hword, hrest⟩ := ih fun other hother => h other (List.mem_cons_of_mem _ hother)
      exact ⟨front ++ word, isWord_append.mpr ⟨hfront, hword⟩, hsymbol.append hrest⟩

theorem Productive.exists_word (h : grammar.Productive) {symbols : List Symbol}
    (hsymbols : ∀ symbol ∈ symbols, symbol.isTerminal = true ∨ symbol ∈ grammar.nonterminals) :
    ∃ word, IsWord word ∧ grammar.Derives symbols word := by
  refine exists_word_of_forall fun symbol hsymbol => ?_
  rcases hsymbols symbol hsymbol with hterminal | hnonterminal
  · exact ⟨[symbol], isWord_cons.mpr ⟨hterminal, isWord_nil⟩, Derives.refl _⟩
  · exact h symbol hnonterminal

/-- A grammar is productive if each nonterminal has a body in which the nonterminals rank lower. -/
theorem productive_of_rank (rank : Symbol → Nat)
    (h : ∀ production ∈ grammar.productions, ∃ lower ∈ grammar.productions,
      lower.lhs = production.lhs ∧
        ∀ symbol ∈ lower.body, symbol.isNonterminal = true → rank symbol < rank production.lhs) :
    grammar.Productive := by
  intro symbol hsymbol
  generalize hrank : rank symbol = bound
  induction bound using Nat.strongRecOn generalizing symbol with
  | ind bound ih =>
      obtain ⟨production, hproduction, rfl⟩ := mem_nonterminals.mp hsymbol
      obtain ⟨lower, hlower, hlhs, hbody⟩ := h production hproduction
      have hparts : ∀ part ∈ lower.body, ∃ word, IsWord word ∧ grammar.Derives [part] word := by
        intro part hpart
        rcases terminal_or_nonterminal_of_mem_body hlower hpart with hterminal | hnonterminal
        · exact ⟨[part], isWord_cons.mpr ⟨hterminal, isWord_nil⟩, Derives.refl _⟩
        · have hless : rank part < bound := hrank ▸ hbody part hpart hnonterminal
          exact ih _ hless part (mem_nonterminals_of_mem_body hlower hpart hnonterminal) rfl
      obtain ⟨word, hword, hderives⟩ := exists_word_of_forall hparts
      have hfirst : grammar.Derives [production.lhs] lower.body := by
        simpa [hlhs] using derives_body hlower [] []
      exact ⟨word, hword, hfirst.trans hderives⟩

end Grammar

end TableParsing
