import TableParsing.Proofs.ParseTree

/-!
# Rightmost derivations

A rightmost derivation replaces the last nonterminal in each step: what stands
behind the left-hand side is a word (`Grammar.ProducesRight`).  Such a derivation
may be carried out between any symbols and a word (`DerivesRight.inContext`), and
it leads to every word that can be derived at all (`Derives.derivesRight`): the
trees of a string are walked through from right to left.
-/

namespace TableParsing.Grammar

variable (grammar : Grammar)

/-- One step of a rightmost derivation: behind the left-hand side stands a word. -/
inductive ProducesRight : List Symbol → List Symbol → Prop
  | replace {production : Production} (h : production ∈ grammar.productions)
      (before : List Symbol) {word : List Symbol} (hword : IsWord word) :
      ProducesRight (before ++ production.lhs :: word) (before ++ production.body ++ word)

/-- Any number of steps of a rightmost derivation. -/
def DerivesRight : List Symbol → List Symbol → Prop := Relation.ReflTransGen grammar.ProducesRight

variable {grammar} {first second third : List Symbol}

theorem DerivesRight.refl (symbols : List Symbol) : grammar.DerivesRight symbols symbols :=
  Relation.ReflTransGen.refl

theorem DerivesRight.trans (h : grammar.DerivesRight first second)
    (h' : grammar.DerivesRight second third) : grammar.DerivesRight first third :=
  Relation.ReflTransGen.trans h h'

theorem ProducesRight.inContext (h : grammar.ProducesRight first second) (before : List Symbol)
    {word : List Symbol} (hword : IsWord word) :
    grammar.ProducesRight (before ++ first ++ word) (before ++ second ++ word) := by
  obtain ⟨hproduction, left, hbehind⟩ := h
  simpa only [List.append_assoc, List.cons_append] using
    ProducesRight.replace hproduction (before ++ left) (isWord_append.mpr ⟨hbehind, hword⟩)

theorem DerivesRight.inContext (h : grammar.DerivesRight first second) (before : List Symbol)
    {word : List Symbol} (hword : IsWord word) :
    grammar.DerivesRight (before ++ first ++ word) (before ++ second ++ word) := by
  induction h with
  | refl => exact DerivesRight.refl _
  | tail _ hstep ih => exact ih.trans (.single (hstep.inContext before hword))

theorem derivesRight_body {production : Production} (h : production ∈ grammar.productions)
    (before : List Symbol) {word : List Symbol} (hword : IsWord word) :
    grammar.DerivesRight (before ++ production.lhs :: word) (before ++ production.body ++ word) :=
  .single (.replace h before hword)

theorem DerivesRight.derives (h : grammar.DerivesRight first second) :
    grammar.Derives first second := by
  induction h with
  | refl => exact Derives.refl _
  | tail _ hstep ih =>
      obtain ⟨hproduction, before, _⟩ := hstep
      exact ih.trans (derives_body hproduction before _)

/-- The derivation that walks through the trees of a string from right to left. -/
theorem Parses.derivesRight {symbols : List Symbol} {trees : List Tree} {word : List Symbol}
    (h : grammar.Parses symbols trees word) : grammar.DerivesRight symbols word := by
  induction h with
  | nil => exact DerivesRight.refl _
  | leaf atom _ ih => simpa using ih.inContext [.terminal atom] isWord_nil
  | @node rule production symbol children yield symbols trees word hrule hlhs below rest
      ihBelow ihRest =>
      -- the symbols behind come first, then the node, then what stands below it
      subst hlhs
      have hbehind := ihRest.inContext [production.lhs] isWord_nil
      have hnode := derivesRight_body (mem_of_production? hrule) [] rest.isWord
      have hbelow := ihBelow.inContext [] rest.isWord
      simp only [List.append_nil, List.nil_append, List.singleton_append] at hbehind hnode hbelow
      exact hbehind.trans (hnode.trans hbelow)

theorem Derives.derivesRight {symbols word : List Symbol} (h : grammar.Derives symbols word)
    (hword : IsWord word) : grammar.DerivesRight symbols word := by
  obtain ⟨trees, htrees⟩ := h.exists_parses hword
  exact htrees.derivesRight

end TableParsing.Grammar
