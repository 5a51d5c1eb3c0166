import TableParsing.Proofs.Derivation

/-!
# Parse trees

A node of a parse tree names the production that it applies by its number, so
that two equal alternatives make different trees.  `Grammar.Parses` relates a
string of symbols, the trees that stand below it, one for each symbol, and the
word at the leaves: a tree of the start symbol `S` with the word `w` is a `tree`
with `Parses [S] [tree] w`.

The trees of a string are what its derivations to words leave behind:
`Parses.derives` reads a derivation off the trees, and `exists_parses` plants
trees along a derivation.
-/

namespace TableParsing

/-- A parse tree: a leaf with the atom of a terminal, or a node with the number of a production. -/
inductive Tree where
  | leaf (atom : String)
  | node (rule : Nat) (children : List Tree)

namespace Tree

mutual

/-- The number of leaves and nodes of a tree. -/
def size : Tree → Nat
  | leaf _ => 1
  | node _ children => sizes children + 1

/-- The number of leaves and nodes of some trees. -/
def sizes : List Tree → Nat
  | [] => 0
  | tree :: trees => size tree + sizes trees

end

@[simp] theorem sizes_nil : sizes [] = 0 := rfl

@[simp] theorem sizes_cons (tree : Tree) (trees : List Tree) :
    sizes (tree :: trees) = tree.size + sizes trees := rfl

@[simp] theorem size_leaf (atom : String) : (leaf atom).size = 1 := rfl

@[simp] theorem size_node (rule : Nat) (children : List Tree) :
    (node rule children).size = sizes children + 1 := rfl

@[simp] theorem sizes_append (front back : List Tree) :
    sizes (front ++ back) = sizes front + sizes back := by
  induction front with
  | nil => simp
  | cons tree front ih => rw [List.cons_append, sizes_cons, sizes_cons, ih, Nat.add_assoc]

end Tree

namespace Grammar

variable (grammar : Grammar)

/-- Trees stand one below each symbol of a string, and a word is what their leaves spell. -/
inductive Parses : List Symbol → List Tree → List Symbol → Prop
  | nil : Parses [] [] []
  | leaf {symbols : List Symbol} {trees : List Tree} {word : List Symbol} (atom : String)
      (rest : Parses symbols trees word) :
      Parses (.terminal atom :: symbols) (.leaf atom :: trees) (.terminal atom :: word)
  | node {rule : Nat} {production : Production} {symbol : Symbol} {children : List Tree}
      {yield : List Symbol} {symbols : List Symbol} {trees : List Tree} {word : List Symbol}
      (hrule : grammar.production? rule = some production) (hlhs : production.lhs = symbol)
      (below : Parses production.body children yield) (rest : Parses symbols trees word) :
      Parses (symbol :: symbols) (.node rule children :: trees) (yield ++ word)

variable {grammar} {symbols : List Symbol} {trees : List Tree} {word : List Symbol}

namespace Parses

theorem isWord (h : grammar.Parses symbols trees word) : IsWord word := by
  induction h with
  | nil => exact isWord_nil
  | leaf atom _ ih => exact isWord_cons.mpr ⟨rfl, ih⟩
  | node _ _ _ _ ihBelow ihRest => exact isWord_append.mpr ⟨ihBelow, ihRest⟩

theorem length_eq (h : grammar.Parses symbols trees word) : trees.length = symbols.length := by
  induction h with
  | nil => rfl
  | leaf atom _ ih => simp [ih]
  | node _ _ _ _ _ ih => simp [ih]

theorem derives (h : grammar.Parses symbols trees word) : grammar.Derives symbols word := by
  induction h with
  | nil => exact Derives.refl _
  | leaf atom _ ih => exact ih.cons _
  | node hrule hlhs _ _ ihBelow ihRest =>
      have hstep := derives_body (mem_of_production? hrule) [] []
      rw [List.nil_append, List.nil_append, List.append_nil, hlhs] at hstep
      exact (hstep.trans ihBelow).append ihRest

theorem append {symbols' : List Symbol} {trees' : List Tree} {word' : List Symbol}
    (h : grammar.Parses symbols trees word) (h' : grammar.Parses symbols' trees' word') :
    grammar.Parses (symbols ++ symbols') (trees ++ trees') (word ++ word') := by
  induction h with
  | nil => exact h'
  | leaf atom _ ih => exact .leaf atom ih
  | node hrule hlhs below _ _ ih =>
      rw [List.append_assoc]
      exact .node hrule hlhs below ih

theorem exists_split {first second : List Symbol}
    (h : grammar.Parses (first ++ second) trees word) :
    ∃ front back start rest, trees = front ++ back ∧ word = start ++ rest ∧
      grammar.Parses first front start ∧ grammar.Parses second back rest := by
  induction first generalizing trees word with
  | nil => exact ⟨[], trees, [], word, rfl, rfl, .nil, h⟩
  | cons symbol first ih =>
      cases h with
      | leaf atom hrest =>
          obtain ⟨front, back, start, rest, rfl, rfl, hfirst, hsecond⟩ := ih hrest
          exact ⟨.leaf atom :: front, back, .terminal atom :: start, rest, rfl, rfl,
            .leaf atom hfirst, hsecond⟩
      | node hrule hlhs hbelow hrest =>
          obtain ⟨front, back, start, rest, rfl, rfl, hfirst, hsecond⟩ := ih hrest
          exact ⟨.node _ _ :: front, back, _ ++ start, rest, rfl, (List.append_assoc ..).symm,
            .node hrule hlhs hbelow hfirst, hsecond⟩

theorem exists_of_terminal {atom : String}
    (h : grammar.Parses (.terminal atom :: symbols) trees word) :
    ∃ others rest, trees = .leaf atom :: others ∧ word = .terminal atom :: rest ∧
      grammar.Parses symbols others rest := by
  cases h with
  | leaf _ hrest => exact ⟨_, _, rfl, rfl, hrest⟩
  | node hrule hlhs =>
      have hkind := lhs_isNonterminal (mem_of_production? hrule)
      rw [hlhs] at hkind
      cases hkind

/-- Below a nonterminal stands a node with one of its productions. -/
theorem exists_of_nonterminal {symbol : Symbol} (hkind : symbol.isNonterminal = true)
    (h : grammar.Parses (symbol :: symbols) trees word) :
    ∃ rule production children yield others rest, trees = .node rule children :: others ∧
      word = yield ++ rest ∧ grammar.production? rule = some production ∧
      production.lhs = symbol ∧ grammar.Parses production.body children yield ∧
      grammar.Parses symbols others rest := by
  cases h with
  | leaf => cases hkind
  | node hrule hlhs hbelow hrest =>
      exact ⟨_, _, _, _, _, _, rfl, rfl, hrule, hlhs, hbelow, hrest⟩

end Parses

theorem exists_parses_of_isWord (h : IsWord word) : ∃ trees, grammar.Parses word trees word := by
  induction word with
  | nil => exact ⟨[], .nil⟩
  | cons symbol rest ih =>
      obtain ⟨hsymbol, hrest⟩ := isWord_cons.mp h
      obtain ⟨trees, htrees⟩ := ih hrest
      cases symbol with
      | terminal atom => exact ⟨.leaf atom :: trees, .leaf atom htrees⟩
      | epsilon | nonterminal | endMarker => cases hsymbol

/-- Trees below the outcome of a step hang together below its origin. -/
theorem Produces.exists_parses {before after : List Symbol} (hstep : grammar.Produces before after)
    (h : grammar.Parses after trees word) : ∃ trees', grammar.Parses before trees' word := by
  obtain ⟨hproduction, left, right⟩ := hstep
  obtain ⟨rule, hrule⟩ := exists_production?_of_mem hproduction
  obtain ⟨front, back, start, rest, rfl, rfl, hfront, hback⟩ := h.exists_split
  obtain ⟨outer, inner, outerWord, innerWord, rfl, rfl, houter, hinner⟩ := hfront.exists_split
  refine ⟨outer ++ .node rule inner :: back, ?_⟩
  rw [List.append_assoc]
  exact houter.append (.node hrule rfl hinner hback)

/-- A string that derives a word has trees with this word. -/
theorem Derives.exists_parses (h : grammar.Derives symbols word) (hword : IsWord word) :
    ∃ trees, grammar.Parses symbols trees word := by
  induction h using Relation.ReflTransGen.head_induction_on with
  | refl => exact exists_parses_of_isWord hword
  | head hstep _ ih =>
      obtain ⟨trees, htrees⟩ := ih
      exact hstep.exists_parses htrees

theorem Parses.eq_singleton {symbol : Symbol} (h : grammar.Parses [symbol] trees word) :
    ∃ tree, trees = [tree] :=
  List.length_eq_one_iff.mp h.length_eq

end Grammar

end TableParsing
