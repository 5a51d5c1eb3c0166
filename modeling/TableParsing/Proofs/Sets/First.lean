import TableParsing.Proofs.Derivation
import TableParsing.Proofs.Sets.Inclusion
import TableParsing.Sets.First

/-!
# FIRST sets along derivations

FIRST of a string splits over concatenation (`mem_ofString_append`).  Sets that
satisfy the demands of a grammar's productions (`FirstSets.Closed`), as the
computed ones do, can therefore only shrink along a derivation
(`mem_ofString_of_derives`): what can begin a derived string can begin the string
that it was derived from.  Behind every input stands the end marker, so that the
next symbol of a word, `nextOf`, is always in FIRST of what derives the word.
-/

namespace TableParsing

/-- The first symbol of a word, or the end marker behind the empty one. -/
def nextOf (word : List Symbol) : Symbol := word.head?.getD .endMarker

@[simp] theorem nextOf_nil : nextOf [] = .endMarker := rfl

@[simp] theorem nextOf_cons (symbol : Symbol) (rest : List Symbol) :
    nextOf (symbol :: rest) = symbol := rfl

/-- A symbol that a parser can come to look at: a terminal, or the end marker at the end. -/
def Symbol.IsInput (symbol : Symbol) : Prop := symbol.isTerminal = true ∨ symbol = .endMarker

theorem Symbol.IsInput.ne_epsilon {symbol : Symbol} (h : symbol.IsInput) : symbol ≠ .epsilon := by
  rintro rfl
  rcases h with hkind | hkind <;> cases hkind

theorem Symbol.IsInput.ne_nonterminal {symbol other : Symbol} (h : symbol.IsInput)
    (hother : other.isNonterminal = true) : other ≠ symbol := by
  rintro rfl
  rcases h with hkind | rfl
  · cases other with
    | terminal atom => cases hother
    | epsilon | nonterminal | endMarker => cases hkind
  · cases hother

theorem isInput_nextOf {word : List Symbol} (hword : IsWord word) : (nextOf word).IsInput := by
  cases word with
  | nil => exact .inr rfl
  | cons symbol rest => exact .inl (isWord_cons.mp hword).1

theorem nextOf_eq_endMarker {word : List Symbol} (hword : IsWord word)
    (h : nextOf word = .endMarker) : word = [] := by
  cases word with
  | nil => rfl
  | cons symbol rest =>
      have hterminal := (isWord_cons.mp hword).1
      rw [nextOf_cons] at h
      rw [h] at hterminal
      cases hterminal

namespace FirstSets

variable {first : FirstSets} {grammar : Grammar}

/-- The set of each left-hand side includes FIRST of its right-hand sides. -/
def Closed (first : FirstSets) (grammar : Grammar) : Prop :=
  ∀ production ∈ grammar.productions, ∀ member ∈ first.ofString production.rhs,
    member ∈ first.setOf production.lhs

/-! ## FIRST of strings -/

theorem mem_visible {set : SymbolSet} {symbol : Symbol} :
    symbol ∈ visible set ↔ symbol ∈ set ∧ symbol ≠ .epsilon := by
  simp [visible]

/-- A string that begins with a symbol of the input begins with nothing else. -/
theorem ofString_input {symbol : Symbol} (h : symbol.IsInput) (rest : List Symbol) :
    first.ofString (symbol :: rest) = {symbol} := by
  cases symbol with
  | terminal | endMarker => rfl
  | epsilon | nonterminal => rcases h with hkind | hkind <;> cases hkind

theorem mem_ofString_nonterminal {atom : String} {rest : List Symbol} {symbol : Symbol} :
    symbol ∈ first.ofString (.nonterminal atom :: rest) ↔
      symbol ∈ first.setOf (.nonterminal atom) ∧ symbol ≠ .epsilon ∨
        .epsilon ∈ first.setOf (.nonterminal atom) ∧ symbol ∈ first.ofString rest := by
  rw [ofString]
  split
  · rename_i hnullable
    simp [mem_visible, hnullable]
  · rename_i hnullable
    simp [mem_visible, hnullable]

theorem mem_ofString_append {front back : List Symbol} {symbol : Symbol} :
    symbol ∈ first.ofString (front ++ back) ↔
      symbol ∈ first.ofString front ∧ symbol ≠ .epsilon ∨
        .epsilon ∈ first.ofString front ∧ symbol ∈ first.ofString back := by
  induction front with
  | nil =>
      have hmark : symbol ∈ ({.epsilon} : SymbolSet) ↔ symbol = .epsilon := SortedSet.mem_singleton
      simp only [List.nil_append, ofString, hmark]
      simp
  | cons head rest ih =>
      cases head with
      | epsilon => simpa only [List.cons_append, ofString] using ih
      | terminal | endMarker =>
          -- a symbol of the input cannot vanish, so what stands behind it does not count
          simp only [List.cons_append, ofString, SortedSet.mem_singleton]
          constructor
          · rintro rfl
            exact .inl ⟨rfl, by simp⟩
          · rintro (h | h)
            · exact h.1
            · cases h.1
      | nonterminal atom =>
          rw [List.cons_append, mem_ofString_nonterminal, mem_ofString_nonterminal,
            mem_ofString_nonterminal, ih]
          grind

theorem mem_ofString_lhs {production : Production} (h : production ∈ grammar.productions)
    {symbol : Symbol} : symbol ∈ first.ofString [production.lhs] ↔
      symbol ∈ first.setOf production.lhs := by
  have hkind := Grammar.lhs_isNonterminal h
  cases hlhs : production.lhs with
  | nonterminal atom =>
      have hmark : symbol ∈ first.ofString [] ↔ symbol = .epsilon := SortedSet.mem_singleton
      rw [mem_ofString_nonterminal, hmark]
      by_cases hsymbol : symbol = .epsilon
      · simp [hsymbol]
      · simp [hsymbol]
  | epsilon | terminal | endMarker => rw [hlhs] at hkind; cases hkind

/-- The empty string's mark does not count in FIRST. -/
theorem ofString_body (production : Production) :
    first.ofString production.body = first.ofString production.rhs := by
  unfold Production.body
  split
  · rename_i hepsilon
    have hrhs : production.rhs = [.epsilon] := by simpa [Production.isEpsilon] using hepsilon
    rw [hrhs]
    rfl
  · rfl

/-! ## FIRST of words -/

/-- The next symbol of a word begins it and what stands behind it. -/
theorem nextOf_mem_ofString {word : List Symbol} (h : IsWord word) :
    nextOf word ∈ first.ofString (word ++ [.endMarker]) := by
  cases word with
  | nil => exact SortedSet.mem_singleton.mpr rfl
  | cons symbol rest =>
      rw [nextOf_cons, List.cons_append, ofString_input (.inl (isWord_cons.mp h).1)]
      exact SortedSet.mem_singleton.mpr rfl

/-! ## Along derivations -/

theorem mem_ofString_of_part {before small large after : List Symbol}
    (h : ∀ member ∈ first.ofString small, member ∈ first.ofString large) {symbol : Symbol}
    (hsymbol : symbol ∈ first.ofString (before ++ small ++ after)) :
    symbol ∈ first.ofString (before ++ large ++ after) := by
  simp only [mem_ofString_append] at hsymbol ⊢
  have hmark := h .epsilon
  have hown := h symbol
  grind

theorem Closed.mem_ofString_of_produces (h : first.Closed grammar) {before after : List Symbol}
    (hstep : grammar.Produces before after) {symbol : Symbol}
    (hsymbol : symbol ∈ first.ofString after) : symbol ∈ first.ofString before := by
  obtain @⟨production, hproduction, left, right⟩ := hstep
  have hbody : ∀ member ∈ first.ofString production.body,
      member ∈ first.ofString [production.lhs] := by
    intro member hmember
    rw [ofString_body] at hmember
    exact (mem_ofString_lhs hproduction).mpr (h production hproduction member hmember)
  simpa using mem_ofString_of_part hbody hsymbol

/-- What can begin a derived string can begin the string that it was derived from. -/
theorem Closed.mem_ofString_of_derives (h : first.Closed grammar) {before after : List Symbol}
    (hderives : grammar.Derives before after) {symbol : Symbol}
    (hsymbol : symbol ∈ first.ofString after) : symbol ∈ first.ofString before := by
  induction hderives with
  | refl => exact hsymbol
  | tail _ hstep ih => exact ih (h.mem_ofString_of_produces hstep hsymbol)

theorem Closed.nextOf_mem_ofString (h : first.Closed grammar) {symbols word : List Symbol}
    (hderives : grammar.Derives symbols word) (hword : IsWord word) :
    nextOf word ∈ first.ofString (symbols ++ [.endMarker]) :=
  h.mem_ofString_of_derives (hderives.append_right _) (FirstSets.nextOf_mem_ofString hword)

/-! ## The computed sets -/

theorem ofString_subset {small large : FirstSets}
    (h : SymbolFamily.Below small.family large.family) (symbols : List Symbol) :
    ∀ member ∈ small.ofString symbols, member ∈ large.ofString symbols := by
  induction symbols with
  | nil => exact fun _ hmember => hmember
  | cons symbol rest ih =>
      intro member
      cases symbol with
      | epsilon => exact ih member
      | terminal atom => exact id
      | endMarker => exact id
      | nonterminal atom =>
          rw [mem_ofString_nonterminal, mem_ofString_nonterminal]
          have hown := h (.nonterminal atom)
          rintro (⟨hmember, hvisible⟩ | ⟨hnullable, hmember⟩)
          · exact .inl ⟨hown member hmember, hvisible⟩
          · exact .inr ⟨hown _ hnullable, ih member hmember⟩

theorem inclusion_monotone (production : Production) : (inclusion production).Monotone :=
  fun _ _ h member hmember => ofString_subset h production.rhs member hmember

theorem ofGrammar_closed (grammar : Grammar) : (ofGrammar grammar).Closed grammar := by
  intro production hproduction member hmember
  exact Inclusion.source_subset_saturated _ (List.mem_map_of_mem hproduction)
    (inclusion_monotone production) hmember

end FirstSets

end TableParsing
