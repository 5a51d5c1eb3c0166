import TableParsing.Predictive.Parser
import TableParsing.Proofs.ParseTree
import TableParsing.Proofs.Sets.Follow
import TableParsing.Proofs.Tables

/-!
# What a predictive table predicts

A table that was made holds exactly the claims of the productions
(`rule?_eq_some_iff`): no other production than the one found claims the cell.
That much holds for any sets.  With sets that satisfy the demands of the grammar
the claim is met where it is needed: a production is predicted before whatever can
begin its body and what stands behind it (`rule?_of_mem_ofString`).  So the
production at a node of a parse tree is predicted for the nonterminal before the
symbol that comes next in the word (`rule?_of_parses`), whether that symbol is at a
leaf below the node or behind it.
-/

namespace TableParsing.Predictive

variable {grammar : Grammar} {first : FirstSets} {follow : FollowSets} {parser : Parser}

namespace Table

theorem mem_lookaheads {production : Production} {symbol : Symbol} :
    symbol ∈ lookaheads first follow production ↔
      symbol ∈ first.ofString production.rhs ∧ symbol ≠ .epsilon ∨
        .epsilon ∈ first.ofString production.rhs ∧ symbol ∈ follow.setOf production.lhs := by
  unfold lookaheads
  simp only [List.mem_append, SortedSet.mem_toList, FirstSets.mem_visible]
  split
  · rename_i hnull
    simp [hnull]
  · rename_i hnull
    simp [hnull]

theorem mem_claims {row column : Symbol} {rule : Nat} :
    (⟨row, column⟩, rule) ∈ claims grammar first follow ↔
      ∃ production, grammar.production? rule = some production ∧ production.lhs = row ∧
        column ∈ lookaheads first follow production := by
  simp only [claims, List.mem_flatMap, List.mem_map, Prod.exists, Prod.mk.injEq, Cell.mk.injEq]
  constructor
  · rintro ⟨production, index, hmem, lookahead, hlookahead, ⟨rfl, rfl⟩, rfl⟩
    exact ⟨production, List.mem_zipIdx_iff_getElem?.mp hmem, rfl, hlookahead⟩
  · rintro ⟨production, hproduction, rfl, hlookahead⟩
    exact ⟨production, rule, List.mem_zipIdx_iff_getElem?.mpr hproduction, column, hlookahead,
      ⟨rfl, rfl⟩, rfl⟩

theorem eq_of_clash?_eq_none {cell : Cell Symbol} {earlier later : Nat}
    (hearlier : (cell, earlier) ∈ claims grammar first follow)
    (hlater : (cell, later) ∈ claims grammar first follow)
    (h : clash? grammar cell earlier later = none) : earlier = later := by
  obtain ⟨existing, hexisting, _⟩ := mem_claims.mp hearlier
  obtain ⟨conflicting, hconflicting, _⟩ := mem_claims.mp hlater
  by_contra hne
  simp [clash?, hne, hexisting, hconflicting] at h

theorem clash?_self (grammar : Grammar) (cell : Cell Symbol) (rule : Nat) :
    clash? grammar cell rule rule = none := by
  simp [clash?]

end Table

namespace Parser

theorem exists_table_of_ofSets (h : ofSets grammar first follow = .ok parser) :
    parser.grammar = grammar ∧
      SortedMap.fill (Table.clash? grammar) (Table.claims grammar first follow) ∅ =
        .ok parser.table.entries := by
  unfold ofSets Table.ofSets at h
  cases hfill : SortedMap.fill (Table.clash? grammar) (Table.claims grammar first follow) ∅ with
  | error conflict =>
      rw [hfill] at h
      cases h
  | ok entries =>
      rw [hfill] at h
      cases h
      exact ⟨rfl, rfl⟩

theorem exists_ofSets_iff : (∃ parser, ofSets grammar first follow = .ok parser) ↔
    ∀ rule rule' production production', grammar.production? rule = some production →
      grammar.production? rule' = some production' → production.lhs = production'.lhs →
        ∀ lookahead ∈ Table.lookaheads first follow production,
          lookahead ∈ Table.lookaheads first follow production' → rule = rule' := by
  simp only [ofSets, Table.ofSets, exists_map_eq_ok_iff]
  rw [SortedMap.exists_fill_iff]
  · constructor
    · intro h rule rule' production production' hrule hrule' hlhs lookahead hmem hmem'
      exact h ⟨production.lhs, lookahead⟩ rule rule'
        (Table.mem_claims.mpr ⟨production, hrule, rfl, hmem⟩)
        (Table.mem_claims.mpr ⟨production', hrule', hlhs.symm, hmem'⟩)
    · intro h cell rule rule' hclaim hclaim'
      obtain ⟨production, hrule, hlhs, hmem⟩ := Table.mem_claims.mp hclaim
      obtain ⟨production', hrule', hlhs', hmem'⟩ := Table.mem_claims.mp hclaim'
      exact h rule rule' production production' hrule hrule' (hlhs.trans hlhs'.symm) _ hmem hmem'
  · intro cell rule rule' hclaim hclaim'
    constructor
    · exact Table.eq_of_clash?_eq_none hclaim hclaim'
    · rintro rfl
      exact Table.clash?_self grammar cell rule

/-- A table that was made predicts the production that claims the cell, and nothing where there is
no claim. -/
theorem rule?_eq_some_iff (h : ofSets grammar first follow = .ok parser)
    {nonterminal lookahead : Symbol} {rule : Nat} :
    parser.table.rule? nonterminal lookahead = some rule ↔
      ∃ production, grammar.production? rule = some production ∧
        production.lhs = nonterminal ∧ lookahead ∈ Table.lookaheads first follow production := by
  obtain ⟨_, hfill⟩ := exists_table_of_ofSets h
  rw [Table.rule?, SortedMap.get?_of_fill hfill fun cell earlier later hearlier hlater =>
    Table.eq_of_clash?_eq_none hearlier hlater]
  exact Table.mem_claims

theorem mem_of_predict? (h : ofSets grammar first follow = .ok parser)
    {nonterminal lookahead : Symbol} {production : Production}
    (hpredict : parser.predict? nonterminal lookahead = some production) :
    production ∈ grammar.productions ∧ production.lhs = nonterminal := by
  obtain ⟨rule, hrule, hproduction⟩ := Option.bind_eq_some_iff.mp hpredict
  rw [(exists_table_of_ofSets h).1] at hproduction
  obtain ⟨claimed, hclaimed, hlhs, _⟩ := (rule?_eq_some_iff h).mp hrule
  have hsame : production = claimed := Option.some.inj (hproduction.symm.trans hclaimed)
  exact ⟨Grammar.mem_of_production? hproduction, hsame ▸ hlhs⟩

theorem predict?_of_rule? (h : ofSets grammar first follow = .ok parser)
    {nonterminal lookahead : Symbol} {rule : Nat} {production : Production}
    (hproduction : grammar.production? rule = some production)
    (hrule : parser.table.rule? nonterminal lookahead = some rule) :
    parser.predict? nonterminal lookahead = some production := by
  rw [predict?, hrule, Option.bind_some, (exists_table_of_ofSets h).1, hproduction]

/-! ## Predictions that are called for -/

/-- A production is predicted for its left-hand side before whatever can begin its body and what
stands behind, since FOLLOW covers what comes next where the body vanishes. -/
theorem rule?_of_mem_ofString (h : ofSets grammar first follow = .ok parser) {rule : Nat}
    {production : Production} (hproduction : grammar.production? rule = some production)
    {below tail : List Symbol}
    (hcovers : FollowSets.Covers first follow tail (production.lhs :: below)) {lookahead : Symbol}
    (hne : lookahead ≠ .epsilon)
    (hmem : lookahead ∈ first.ofString (production.body ++ (below ++ tail))) :
    parser.table.rule? production.lhs lookahead = some rule := by
  refine (rule?_eq_some_iff h).mpr ⟨production, hproduction, rfl, Table.mem_lookaheads.mpr ?_⟩
  rw [← FirstSets.ofString_body]
  rcases FirstSets.mem_ofString_append.mp hmem with ⟨hbody, _⟩ | ⟨hnull, hbehind⟩
  · exact .inl ⟨hbody, hne⟩
  · have hkind := Grammar.lhs_isNonterminal (Grammar.mem_of_production? hproduction)
    exact .inr ⟨hnull, hcovers.1 hkind lookahead hbehind⟩

/-- The production at a node is predicted for its left-hand side before the next symbol of the word
that the node and what stands behind it derive. -/
theorem rule?_of_parses (h : ofSets grammar first follow = .ok parser)
    (hfirst : first.Closed grammar) {rule : Nat} {production : Production}
    (hproduction : grammar.production? rule = some production) {children : List Tree}
    {yield below rest : List Symbol} (htree : grammar.Parses production.body children yield)
    (hcovers : FollowSets.Covers first follow [.endMarker] (production.lhs :: below))
    (hbelow : grammar.Derives below rest) (hrest : IsWord rest) :
    parser.table.rule? production.lhs (nextOf (yield ++ rest)) = some rule := by
  have hword : IsWord (yield ++ rest) := isWord_append.mpr ⟨htree.isWord, hrest⟩
  have hnext := hfirst.nextOf_mem_ofString (htree.derives.append hbelow) hword
  rw [List.append_assoc] at hnext
  exact rule?_of_mem_ofString h hproduction hcovers (isInput_nextOf hword).ne_epsilon hnext

/-- Trees of one string whose words go on to the same word are the same: at every node both must
apply the production that is predicted. -/
theorem parses_unique (h : ofSets grammar first follow = .ok parser)
    (hfirst : first.Closed grammar) (hfollow : FollowSets.Closed grammar first follow)
    {symbols below : List Symbol} {trees trees' : List Tree} {word word' rest rest' : List Symbol}
    (htrees : grammar.Parses symbols trees word) (htrees' : grammar.Parses symbols trees' word')
    (hcovers : FollowSets.Covers first follow [.endMarker] (symbols ++ below))
    (hrest : grammar.Derives below rest) (hrest' : grammar.Derives below rest')
    (hword : IsWord rest) (hword' : IsWord rest') (hsame : word ++ rest = word' ++ rest') :
    trees = trees' ∧ word = word' := by
  induction htrees generalizing trees' word' below rest rest' with
  | nil =>
      cases htrees'
      exact ⟨rfl, rfl⟩
  | leaf atom _ ih =>
      obtain ⟨others, back, rfl, rfl, hafter⟩ := htrees'.exists_of_terminal
      obtain ⟨rfl, rfl⟩ :=
        ih hafter hcovers.2 hrest hrest' hword hword' (List.cons.inj hsame).2
      exact ⟨rfl, rfl⟩
  | node hrule hlhs hbelow hafter ihBelow ihAfter =>
      subst hlhs
      rename_i rule production children yield symbols trees word
      have hkind := Grammar.lhs_isNonterminal (Grammar.mem_of_production? hrule)
      obtain ⟨rule', production', children', yield', others, back, rfl, rfl, hrule', hlhs',
        hbelow', hafter'⟩ := htrees'.exists_of_nonterminal hkind
      rw [List.append_assoc, List.append_assoc] at hsame
      -- what stands behind the node derives the rest of either word
      have hbehind := hafter.derives.append hrest
      have hbehind' := hafter'.derives.append hrest'
      have hbehindWord := isWord_append.mpr ⟨hafter.isWord, hword⟩
      have hbehindWord' := isWord_append.mpr ⟨hafter'.isWord, hword'⟩
      have hpredicted := rule?_of_parses h hfirst hrule hbelow hcovers hbehind hbehindWord
      have hpredicted' := rule?_of_parses h hfirst hrule' hbelow' (hlhs' ▸ hcovers) hbehind'
        hbehindWord'
      rw [hlhs', ← hsame, hpredicted] at hpredicted'
      obtain rfl : rule = rule' := Option.some.inj hpredicted'
      obtain rfl : production = production' := Option.some.inj (hrule.symm.trans hrule')
      have hbody : FollowSets.Covers first follow [.endMarker]
          (production.body ++ (symbols ++ below)) := by
        have hstep := Grammar.Produces.replace (Grammar.mem_of_production? hrule) []
          (symbols ++ below)
        exact hfollow.covers_of_produces hfirst hstep hcovers
      obtain ⟨rfl, rfl⟩ :=
        ihBelow hbelow' hbody hbehind hbehind' hbehindWord hbehindWord' hsame
      obtain ⟨rfl, rfl⟩ :=
        ihAfter hafter' hcovers.2 hrest hrest' hword hword' (List.append_cancel_left hsame)
      exact ⟨rfl, rfl⟩

end Parser

end TableParsing.Predictive
