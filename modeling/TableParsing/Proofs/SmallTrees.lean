import Mathlib.Data.Finset.Card
import Mathlib.Tactic.Ring
import TableParsing.Proofs.ParseTree

/-!
# Small parse trees

A parse tree can be larger than any bound, but it need not be: whatever word a
grammar derives has a tree of no more than `treeBound` leaves and nodes
(`exists_small_tree`).

The argument is the same for nodes that yield nothing and for nodes above one
another that yield the same word.  For one word, consider the nonterminals that
have a tree of at most `size` nodes.  As `size` increases, a nonterminal that
joins them has a production whose symbols were there before, so its tree can be
made from theirs, and there are as many occasions to join as there are
nonterminals (`Grows.of_levels`).  Where a body divides a word, its parts are
shorter.
-/

namespace TableParsing.Grammar

variable {grammar : Grammar}

/-- Trees with no more than `size` leaves and nodes stand below some symbols and spell a word. -/
def Grows (grammar : Grammar) (symbols word : List Symbol) (size : Nat) : Prop :=
  ∃ trees, grammar.Parses symbols trees word ∧ Tree.sizes trees ≤ size

namespace Grows

variable {symbols symbols' word word' : List Symbol} {symbol : Symbol} {size size' : Nat}

theorem mono (h : grammar.Grows symbols word size) (hle : size ≤ size') :
    grammar.Grows symbols word size' := by
  obtain ⟨trees, htrees, hsize⟩ := h
  exact ⟨trees, htrees, hsize.trans hle⟩

theorem nil : grammar.Grows [] [] size := ⟨[], .nil, Nat.zero_le size⟩

theorem leaf (atom : String) : grammar.Grows [.terminal atom] [.terminal atom] 1 :=
  ⟨[.leaf atom], .leaf atom .nil, by simp⟩

theorem node {production : Production} (hproduction : production ∈ grammar.productions)
    (h : grammar.Grows production.body word size) :
    grammar.Grows [production.lhs] word (size + 1) := by
  obtain ⟨children, hchildren, hsize⟩ := h
  obtain ⟨rule, hrule⟩ := exists_production?_of_mem hproduction
  refine ⟨[.node rule children], ?_, by simpa using hsize⟩
  simpa using Parses.node hrule rfl hchildren .nil

theorem append (h : grammar.Grows symbols word size) (h' : grammar.Grows symbols' word' size') :
    grammar.Grows (symbols ++ symbols') (word ++ word') (size + size') := by
  obtain ⟨trees, htrees, hsize⟩ := h
  obtain ⟨trees', htrees', hsize'⟩ := h'
  refine ⟨trees ++ trees', htrees.append htrees', ?_⟩
  rw [Tree.sizes_append]
  omega

/-- The trees of a symbol and of those behind it are trees of both. -/
private theorem exists_parts (h : grammar.Grows (symbol :: symbols) word size) :
    ∃ front back, word = front ++ back ∧ grammar.Grows [symbol] front size ∧
      grammar.Grows symbols back size := by
  obtain ⟨trees, htrees, hsize⟩ := h
  have hparts : grammar.Parses ([symbol] ++ symbols) trees word := htrees
  obtain ⟨first, others, front, back, rfl, rfl, hfirst, hothers⟩ := hparts.exists_split
  rw [Tree.sizes_append] at hsize
  exact ⟨front, back, rfl, ⟨first, hfirst, by omega⟩, ⟨others, hothers, by omega⟩⟩

theorem exists_body (hsymbol : symbol ∈ grammar.nonterminals)
    (h : grammar.Grows [symbol] word size) :
    ∃ production ∈ grammar.productions, production.lhs = symbol ∧
      ∃ smaller, smaller < size ∧ grammar.Grows production.body word smaller := by
  obtain ⟨trees, htrees, hsize⟩ := h
  obtain ⟨other, hother, rfl⟩ := mem_nonterminals.mp hsymbol
  obtain ⟨rule, production, children, yield, others, rest, rfl, rfl, hrule, hlhs, hbelow, hrest⟩ :=
    htrees.exists_of_nonterminal (lhs_isNonterminal hother)
  cases hrest
  refine ⟨production, mem_of_production? hrule, hlhs, Tree.sizes children, ?_, ?_⟩
  · simp only [Tree.sizes_cons, Tree.size_node, Tree.sizes_nil] at hsize
    omega
  · rw [List.append_nil]
    exact ⟨children, hbelow, le_rfl⟩

theorem terminal_or_nonterminal (h : grammar.Grows [symbol] word size) :
    (∃ atom, symbol = .terminal atom ∧ word = [.terminal atom]) ∨
      symbol ∈ grammar.nonterminals := by
  obtain ⟨trees, htrees, _⟩ := h
  cases htrees with
  | leaf atom hrest =>
      cases hrest
      exact .inl ⟨atom, rfl, rfl⟩
  | node hrule hlhs => exact .inr (mem_nonterminals.mpr ⟨_, mem_of_production? hrule, hlhs⟩)

theorem mem_nonterminals (h : grammar.Grows [symbol] [] size) : symbol ∈ grammar.nonterminals := by
  rcases h.terminal_or_nonterminal with ⟨_, _, hnil⟩ | hmem
  · cases hnil
  · exact hmem

/-- Symbols on both sides that yield nothing add to the size only. -/
theorem surrounded {front back : List Symbol} {left right : Nat}
    (hfront : grammar.Grows front [] left) (h : grammar.Grows [symbol] word size)
    (hback : grammar.Grows back [] right) :
    grammar.Grows (front ++ symbol :: back) word (left + (size + right)) := by
  have hboth := hfront.append (h.append hback)
  rwa [List.nil_append, List.append_nil] at hboth

end Grows

/-! ## Levels of nonterminals -/

open Classical in
/-- The nonterminals that have a tree of at most `size` nodes above a word. -/
noncomputable def grown (grammar : Grammar) (word : List Symbol) (size : Nat) : Finset Symbol :=
  {symbol ∈ grammar.nonterminals.toList.toFinset | grammar.Grows [symbol] word size}

theorem mem_grown {word : List Symbol} {size : Nat} {symbol : Symbol} :
    symbol ∈ grammar.grown word size ↔
      symbol ∈ grammar.nonterminals ∧ grammar.Grows [symbol] word size := by
  simp [grown]

private theorem card_grown_le (word : List Symbol) (size : Nat) :
    (grammar.grown word size).card ≤ grammar.nonterminals.size := by
  have hsubset : grammar.grown word size ⊆ grammar.nonterminals.toList.toFinset := by
    intro symbol hsymbol
    exact List.mem_toFinset.mpr (mem_grown.mp hsymbol).1
  exact (Finset.card_le_card hsubset).trans (List.toFinset_card_le _)

/-- If trees of one level more can be made from trees of the symbols of a body, then the level of a
tree need not exceed the number of nonterminals. -/
theorem Grows.of_levels {word : List Symbol} {bound : Nat → Nat} (hbound : Monotone bound)
    (hstep : ∀ size level, ∀ production ∈ grammar.productions,
      grammar.Grows production.body word size →
      (∀ symbol ∈ grammar.nonterminals, grammar.Grows [symbol] word size →
        grammar.Grows [symbol] word (bound level)) →
      grammar.Grows [production.lhs] word (bound (level + 1)))
    {symbol : Symbol} (hsymbol : symbol ∈ grammar.nonterminals) {size : Nat}
    (h : grammar.Grows [symbol] word size) :
    grammar.Grows [symbol] word (bound grammar.nonterminals.size) := by
  suffices hlevel : grammar.Grows [symbol] word (bound (grammar.grown word size).card) from
    hlevel.mono (hbound (card_grown_le word size))
  induction size generalizing symbol with
  | zero =>
      obtain ⟨_, _, _, smaller, hlt, _⟩ := h.exists_body hsymbol
      omega
  | succ size ih =>
      have hsubset : grammar.grown word size ⊆ grammar.grown word (size + 1) := by
        intro other hother
        obtain ⟨hmem, hgrows⟩ := mem_grown.mp hother
        exact mem_grown.mpr ⟨hmem, hgrows.mono (Nat.le_succ size)⟩
      -- a nonterminal that joins has a body whose trees were there before
      by_cases hold : grammar.Grows [symbol] word size
      · exact (ih hsymbol hold).mono (hbound (Finset.card_le_card hsubset))
      · obtain ⟨production, hproduction, rfl, smaller, hlt, hbody⟩ := h.exists_body hsymbol
        have hnew : production.lhs ∉ grammar.grown word size := fun hmem =>
          hold (mem_grown.mp hmem).2
        have hjoins : (grammar.grown word size).card < (grammar.grown word (size + 1)).card :=
          Finset.card_lt_card (Finset.ssubset_iff_of_subset hsubset |>.mpr
            ⟨production.lhs, mem_grown.mpr ⟨hsymbol, h⟩, hnew⟩)
        have hnode := hstep size (grammar.grown word size).card production hproduction
          (hbody.mono (by omega)) fun other hother hgrows => ih hother hgrows
        exact hnode.mono (hbound hjoins)

/-! ## Nothing -/

/-- Symbols that yield nothing have trees that are as large as those of single nonterminals. -/
theorem Grows.of_each {symbols : List Symbol} {size each : Nat}
    (heach : ∀ symbol ∈ grammar.nonterminals, grammar.Grows [symbol] [] size →
      grammar.Grows [symbol] [] each)
    (h : grammar.Grows symbols [] size) : grammar.Grows symbols [] (symbols.length * each) := by
  induction symbols with
  | nil => exact Grows.nil
  | cons symbol symbols ih =>
      obtain ⟨front, back, hword, hsymbol, hsymbols⟩ := h.exists_parts
      obtain ⟨rfl, rfl⟩ := List.append_eq_nil_iff.mp hword.symm
      have hboth := (heach symbol hsymbol.mem_nonterminals hsymbol).append (ih hsymbols)
      rw [List.length_cons, Nat.succ_mul, Nat.add_comm]
      exact hboth

/-- What a tree that yields nothing need not exceed. -/
def emptyBound (grammar : Grammar) : Nat :=
  (grammar.longestBody + 1) ^ grammar.nonterminals.size

theorem Grows.of_nil {symbol : Symbol} {size : Nat} (h : grammar.Grows [symbol] [] size) :
    grammar.Grows [symbol] [] grammar.emptyBound := by
  have hbound : Monotone fun level => (grammar.longestBody + 1) ^ level :=
    fun _ _ hle => Nat.pow_le_pow_right (Nat.succ_pos _) hle
  refine Grows.of_levels hbound ?_ h.mem_nonterminals h
  intro size level production hproduction hbody heach
  refine ((hbody.of_each heach).node hproduction).mono ?_
  have hpos : 0 < (grammar.longestBody + 1) ^ level := Nat.pow_pos (Nat.succ_pos _)
  calc production.body.length * (grammar.longestBody + 1) ^ level + 1
      ≤ grammar.longestBody * (grammar.longestBody + 1) ^ level +
          (grammar.longestBody + 1) ^ level :=
        Nat.add_le_add (Nat.mul_le_mul_right _ (length_body_le hproduction)) hpos
    _ = (grammar.longestBody + 1) ^ (level + 1) := by ring

/-! ## Words -/

/-- What a node need not exceed together with the children that yield nothing. -/
def nodeBound (grammar : Grammar) : Nat := grammar.longestBody * grammar.emptyBound + 1

/-- What the nodes above one another that yield the same word need not exceed. -/
def chainBound (grammar : Grammar) : Nat := (grammar.nonterminals.size + 1) * grammar.nodeBound

/-- Whatever yields a word of `length + 1` symbols has a tree with a chain for the word and two
chains for each place at which the word is divided. -/
def Small (grammar : Grammar) (length : Nat) : Prop :=
  ∀ word : List Symbol, word.length = length + 1 → ∀ symbol size,
    grammar.Grows [symbol] word size →
      grammar.Grows [symbol] word (2 * length * grammar.chainBound + grammar.chainBound)

/-- Symbols yield nothing, or one of them yields the whole word, or they divide the word. -/
inductive Yields (grammar : Grammar) (size : Nat) : List Symbol → List Symbol → Prop
  | empty {symbols : List Symbol}
      (h : grammar.Grows symbols [] (symbols.length * grammar.emptyBound)) :
      Yields grammar size symbols []
  | whole {front back word : List Symbol} {symbol : Symbol} (hne : word ≠ [])
      (hfront : grammar.Grows front [] (front.length * grammar.emptyBound))
      (h : grammar.Grows [symbol] word size)
      (hback : grammar.Grows back [] (back.length * grammar.emptyBound)) :
      Yields grammar size (front ++ symbol :: back) word
  | divided {symbols word : List Symbol} {places : Nat} (hword : word.length = places + 1)
      (h : grammar.Grows symbols word
        (2 * places * grammar.chainBound + symbols.length * grammar.emptyBound)) :
      Yields grammar size symbols word

/-- A symbol that yields nothing goes before the others. -/
theorem Yields.cons_empty {symbol : Symbol} {symbols word : List Symbol} {size : Nat}
    (h : grammar.Yields size symbols word)
    (hsymbol : grammar.Grows [symbol] [] grammar.emptyBound) :
    grammar.Yields size (symbol :: symbols) word := by
  cases h with
  | empty h =>
      apply Yields.empty
      rw [List.length_cons, Nat.succ_mul, Nat.add_comm]
      exact hsymbol.append h
  | @whole front back word middle hne hfront h hback =>
      have hlonger : grammar.Grows (symbol :: front) []
          ((symbol :: front).length * grammar.emptyBound) := by
        rw [List.length_cons, Nat.succ_mul, Nat.add_comm]
        exact hsymbol.append hfront
      exact .whole hne hlonger h hback
  | divided hword h =>
      refine .divided hword ((hsymbol.append h).mono ?_)
      rw [List.length_cons, Nat.succ_mul symbols.length]
      omega

/-- A symbol that yields a word goes before the others. -/
theorem Yields.cons {symbol : Symbol} {symbols front back : List Symbol} {size length : Nat}
    (hsmall : ∀ shorter < length, grammar.Small shorter)
    (hlength : (front ++ back).length ≤ length + 1) (hne : front ≠ [])
    (hsymbol : grammar.Grows [symbol] front size) (h : grammar.Yields size symbols back) :
    grammar.Yields size (symbol :: symbols) (front ++ back) := by
  obtain ⟨places, hfront⟩ : ∃ places, front.length = places + 1 :=
    Nat.exists_eq_succ_of_ne_zero fun hzero => hne (List.length_eq_zero_iff.mp hzero)
  rw [List.length_append] at hlength
  cases h with
  | empty h =>
      rw [List.append_nil]
      exact .whole hne Grows.nil hsymbol h
  | @whole left right _ middle hneBack hleft h hright =>
      obtain ⟨others, hback⟩ : ∃ others, back.length = others + 1 :=
        Nat.exists_eq_succ_of_ne_zero fun hzero => hneBack (List.length_eq_zero_iff.mp hzero)
      -- the word is divided once more, and both parts are shorter
      have hfirst := hsmall places (by omega) front hfront symbol size hsymbol
      have hsecond := hsmall others (by omega) back hback middle size h
      have hplaces : (front ++ back).length = (places + others + 1) + 1 := by
        rw [List.length_append]
        omega
      refine .divided hplaces ((hfirst.append (hleft.surrounded hsecond hright)).mono ?_)
      simp only [List.length_cons, List.length_append]
      ring_nf
      omega
  | @divided _ _ others hback h =>
      have hfirst := hsmall places (by omega) front hfront symbol size hsymbol
      have hplaces : (front ++ back).length = (places + others + 1) + 1 := by
        rw [List.length_append]
        omega
      refine .divided hplaces ((hfirst.append h).mono ?_)
      simp only [List.length_cons]
      ring_nf
      omega

theorem Grows.yields {symbols word : List Symbol} {size length : Nat}
    (hsmall : ∀ shorter < length, grammar.Small shorter) (hword : word.length ≤ length + 1)
    (h : grammar.Grows symbols word size) : grammar.Yields size symbols word := by
  induction symbols generalizing word with
  | nil =>
      obtain ⟨trees, htrees, _⟩ := h
      cases htrees
      exact .empty Grows.nil
  | cons symbol symbols ih =>
      obtain ⟨front, back, rfl, hsymbol, hsymbols⟩ := h.exists_parts
      have hback : back.length ≤ length + 1 := by
        rw [List.length_append] at hword
        omega
      by_cases hfront : front = []
      · subst hfront
        exact (ih hback hsymbols).cons_empty hsymbol.of_nil
      · exact (ih hback hsymbols).cons hsmall hword hfront hsymbol

theorem emptyBound_pos (grammar : Grammar) : 0 < grammar.emptyBound :=
  Nat.pow_pos (Nat.succ_pos _)

private theorem nodeBound_le_chainBound (grammar : Grammar) : grammar.nodeBound ≤ grammar.chainBound :=
  Nat.le_mul_of_pos_left _ (Nat.succ_pos _)

/-- From a tree for one symbol of a body, or trees for a body that divides the word, a tree of one
node more can be made. -/
theorem Yields.node {production : Production} (hproduction : production ∈ grammar.productions)
    {word : List Symbol} {size length larger : Nat} (hword : word.length = length + 1)
    (hlarger : 2 * length * grammar.chainBound ≤ larger)
    (heach : ∀ symbol ∈ grammar.nonterminals, grammar.Grows [symbol] word size →
      grammar.Grows [symbol] word larger)
    (h : grammar.Yields size production.body word) :
    grammar.Grows [production.lhs] word (larger + grammar.nodeBound) := by
  have hbody := length_body_le hproduction
  generalize hsymbols : production.body = symbols at h hbody
  cases h with
  | empty h => cases hword
  | @whole front back _ symbol hne hfront h hback =>
      have hsymbol : grammar.Grows [symbol] word (larger + 1) := by
        rcases h.terminal_or_nonterminal with ⟨atom, rfl, rfl⟩ | hmem
        · exact (Grows.leaf atom).mono (by omega)
        · exact (heach symbol hmem h).mono (Nat.le_succ larger)
      have hnode := hfront.surrounded hsymbol hback
      rw [← hsymbols] at hnode
      refine (hnode.node hproduction).mono ?_
      have hlonger : (front.length + back.length + 1) * grammar.emptyBound ≤
          grammar.longestBody * grammar.emptyBound := by
        apply Nat.mul_le_mul_right
        simpa [Nat.add_assoc] using hbody
      have hpos := grammar.emptyBound_pos
      rw [nodeBound]
      rw [Nat.add_mul, Nat.add_mul] at hlonger
      omega
  | @divided _ _ places hplaces h =>
      obtain rfl : places = length := by omega
      rw [← hsymbols] at h hbody
      refine (h.node hproduction).mono ?_
      have hlonger := Nat.mul_le_mul_right grammar.emptyBound hbody
      rw [nodeBound]
      omega

theorem small (grammar : Grammar) (length : Nat) : grammar.Small length := by
  induction length using Nat.strong_induction_on with
  | _ length ih =>
      intro word hword symbol size h
      rcases h.terminal_or_nonterminal with ⟨atom, rfl, rfl⟩ | hsymbol
      · refine (Grows.leaf atom).mono ?_
        have hnode := grammar.nodeBound_le_chainBound
        rw [nodeBound] at hnode
        omega
      · have hbound : Monotone fun level =>
            2 * length * grammar.chainBound + level * grammar.nodeBound :=
          fun _ _ hle => Nat.add_le_add_left (Nat.mul_le_mul_right _ hle) _
        refine (Grows.of_levels hbound ?_ hsymbol h).mono ?_
        · intro size level production hproduction hbody heach
          have hyields := hbody.yields ih hword.le
          have hnode := hyields.node hproduction hword (Nat.le_add_right ..) heach
          refine hnode.mono ?_
          rw [Nat.succ_mul level, Nat.add_assoc]
        · rw [chainBound, Nat.succ_mul grammar.nonterminals.size]
          omega

/-- What the tree of a word need not exceed. -/
def treeBound (grammar : Grammar) (word : List Symbol) : Nat :=
  (2 * word.length + 1) * grammar.chainBound

private theorem emptyBound_le_chainBound (grammar : Grammar) : grammar.emptyBound ≤ grammar.chainBound := by
  refine le_trans ?_ grammar.nodeBound_le_chainBound
  rw [nodeBound]
  cases hlongest : grammar.longestBody with
  | zero => simp [emptyBound, hlongest]
  | succ longest =>
      rw [Nat.succ_mul]
      omega

/-- Every word that can be derived has a small tree. -/
theorem Derives.exists_small_tree {word : List Symbol} (h : grammar.Derives [grammar.start] word)
    (hword : IsWord word) :
    ∃ tree, grammar.Parses [grammar.start] [tree] word ∧ tree.size ≤ grammar.treeBound word := by
  obtain ⟨trees, htrees⟩ := h.exists_parses hword
  have hgrows : grammar.Grows [grammar.start] word (Tree.sizes trees) := ⟨trees, htrees, le_rfl⟩
  have hsmall : grammar.Grows [grammar.start] word (grammar.treeBound word) := by
    cases hlength : word.length with
    | zero =>
        obtain rfl := List.length_eq_zero_iff.mp hlength
        refine hgrows.of_nil.mono ?_
        simpa [treeBound] using grammar.emptyBound_le_chainBound
    | succ length =>
        refine (grammar.small length word hlength _ _ hgrows).mono ?_
        rw [treeBound, hlength]
        ring_nf
        omega
  obtain ⟨small, hparses, hsize⟩ := hsmall
  obtain ⟨tree, rfl⟩ := hparses.eq_singleton
  exact ⟨tree, hparses, by simpa using hsize⟩

end TableParsing.Grammar
