import TableParsing.Proofs.Predictive.Table

/-!
# The predictive table and its first conflict

A production claims the cells of its left-hand side under what FIRST of its
right-hand side holds, and under FOLLOW of the left-hand side if the right-hand side
can vanish (`Table.ClaimsAt`).  `Table.ofSets_exact` says, for any FIRST and FOLLOW
sets, what comes of these claims:

* a table is made if and only if no cell is claimed by two productions, and then it
  holds exactly the claims;
* otherwise the answer is the first contest: the claims have places, by production,
  FIRST before FOLLOW, and in either set by symbol, and the conflict is found at the
  first place whose cell an earlier production claims as well.

A symbol may stand in FIRST and in FOLLOW and is then entered twice; that is no
contest, since both claims are of one production.
-/

namespace TableParsing.Predictive.Table

open Std

/-! ## Claims and their places -/

/-- The place of a claim in the order in which claims are entered. -/
structure Place where
  rule : Nat
  /-- Whether the symbol comes from FOLLOW of the left-hand side, and not from FIRST of the
  right-hand side. -/
  isBehind : Bool
  symbol : Symbol
deriving DecidableEq, Repr

namespace Place

/-- Places are ordered by production, then FIRST before FOLLOW, then by symbol. -/
instance : Ord Place :=
  ⟨compareLex (compareOn rule) (compareLex (compareOn isBehind) (compareOn symbol))⟩

instance : TransOrd Place :=
  inferInstanceAs
    (TransCmp (compareLex (compareOn rule) (compareLex (compareOn isBehind) (compareOn symbol))))

theorem compare_eq_lt {first second : Place} : compare first second = .lt ↔
    first.rule < second.rule ∨ first.rule = second.rule ∧
      (compare first.isBehind second.isBehind = .lt ∨
        first.isBehind = second.isBehind ∧ compare first.symbol second.symbol = .lt) := by
  show (compare first.rule second.rule).then ((compare first.isBehind second.isBehind).then
    (compare first.symbol second.symbol)) = .lt ↔ _
  simp only [Ordering.then_eq_lt, Nat.compare_eq_lt, LawfulEqOrd.compare_eq_iff_eq]

end Place

/-- The claims that a production makes on cells of its left-hand side. -/
inductive ClaimsAt (grammar : Grammar) (first : FirstSets) (follow : FollowSets) :
    Place → Symbol → Prop
  | next {rule : Nat} {production : Production} {symbol : Symbol}
      (hproduction : grammar.production? rule = some production)
      (hnext : symbol ∈ first.ofString production.rhs) (hne : symbol ≠ .epsilon) :
      ClaimsAt grammar first follow ⟨rule, false, symbol⟩ production.lhs
  | behind {rule : Nat} {production : Production} {symbol : Symbol}
      (hproduction : grammar.production? rule = some production)
      (hnull : .epsilon ∈ first.ofString production.rhs)
      (hbehind : symbol ∈ follow.setOf production.lhs) :
      ClaimsAt grammar first follow ⟨rule, true, symbol⟩ production.lhs

/-- A production claims the cell of a nonterminal under a symbol. -/
def Claims (grammar : Grammar) (first : FirstSets) (follow : FollowSets)
    (nonterminal lookahead : Symbol) (rule : Nat) : Prop :=
  ∃ isBehind, ClaimsAt grammar first follow ⟨rule, isBehind, lookahead⟩ nonterminal

/-- At a place a cell is claimed that a production of smaller number claims as well. -/
def Contested (grammar : Grammar) (first : FirstSets) (follow : FollowSets) (place : Place)
    (nonterminal : Symbol) : Prop :=
  ClaimsAt grammar first follow place nonterminal ∧
    ∃ rule < place.rule, Claims grammar first follow nonterminal place.symbol rule

/-- A place is the first contested one, and the cell there was claimed by a production before. -/
structure FirstContest (grammar : Grammar) (first : FirstSets) (follow : FollowSets) (place : Place)
    (nonterminal : Symbol) (existing : Nat) : Prop where
  contested : Contested grammar first follow place nonterminal
  /-- No production of smaller number claims a cell that was claimed before it. -/
  least_rule : ∀ {other : Place} {row : Symbol}, Contested grammar first follow other row →
    place.rule ≤ other.rule
  /-- Of the contested places of the production this is the first. -/
  first_symbol : ∀ {other : Place} {row : Symbol}, other.rule = place.rule →
    Contested grammar first follow other row → compare other place ≠ .lt
  existing_claims : Claims grammar first follow nonterminal place.symbol existing
  existing_least : ∀ {rule : Nat}, Claims grammar first follow nonterminal place.symbol rule →
    existing ≤ rule

variable {grammar : Grammar} {first : FirstSets} {follow : FollowSets}

/-! ## The claims in the order of their places -/

/-- The claims of a production, each with whether it is made for FOLLOW. -/
def placedClaimsOf (first : FirstSets) (follow : FollowSets) (production : Production)
    (rule : Nat) : List (Bool × Cell Symbol × Nat) :=
  let next := first.ofString production.rhs
  ((FirstSets.visible next).toList.map fun symbol => (false, ⟨production.lhs, symbol⟩, rule)) ++
    if .epsilon ∈ next then
      (follow.setOf production.lhs).toList.map fun symbol => (true, ⟨production.lhs, symbol⟩, rule)
    else []

/-- The claims of all productions, each with whether it is made for FOLLOW. -/
def placedClaims (grammar : Grammar) (first : FirstSets) (follow : FollowSets) :
    List (Bool × Cell Symbol × Nat) :=
  grammar.productions.zipIdx.flatMap fun (production, rule) =>
    placedClaimsOf first follow production rule

/-- The place of a claim. -/
def placeOf (claim : Bool × Cell Symbol × Nat) : Place := ⟨claim.2.2, claim.1, claim.2.1.column⟩

private theorem map_placedClaims : (placedClaims grammar first follow).map Prod.snd =
    claims grammar first follow := by
  simp only [placedClaims, placedClaimsOf, claims, lookaheads, List.map_flatMap, List.map_append,
    List.map_map]
  congr 1
  funext numbered
  obtain ⟨production, rule⟩ := numbered
  split <;> simp [Function.comp_def]

private theorem mem_map_claim {set : SymbolSet} {isBehind isBehind' : Bool} {row column lhs : Symbol}
    {number rule : Nat} :
    (isBehind, ⟨row, column⟩, number) ∈ set.toList.map (fun symbol =>
        (isBehind', (⟨lhs, symbol⟩ : Cell Symbol), rule)) ↔
      number = rule ∧ row = lhs ∧ isBehind = isBehind' ∧ column ∈ set := by
  simp only [List.mem_map, SortedSet.mem_toList, Prod.mk.injEq, Cell.mk.injEq]
  constructor
  · rintro ⟨symbol, hsymbol, rfl, ⟨rfl, rfl⟩, rfl⟩
    exact ⟨rfl, rfl, rfl, hsymbol⟩
  · rintro ⟨rfl, rfl, rfl, hcolumn⟩
    exact ⟨column, hcolumn, rfl, ⟨rfl, rfl⟩, rfl⟩

private theorem mem_placedClaimsOf {production : Production} {rule number : Nat} {isBehind : Bool}
    {row column : Symbol} :
    (isBehind, ⟨row, column⟩, number) ∈ placedClaimsOf first follow production rule ↔
      number = rule ∧ row = production.lhs ∧
        if isBehind then
          .epsilon ∈ first.ofString production.rhs ∧ column ∈ follow.setOf production.lhs
        else column ∈ first.ofString production.rhs ∧ column ≠ .epsilon := by
  rw [placedClaimsOf, List.mem_append, mem_map_claim, FirstSets.mem_visible]
  split
  · rename_i hnull
    rw [mem_map_claim]
    cases isBehind <;> simp [hnull]
  · rename_i hnull
    cases isBehind <;> simp [hnull]

theorem mem_placedClaims {isBehind : Bool} {row column : Symbol} {rule : Nat} :
    (isBehind, ⟨row, column⟩, rule) ∈ placedClaims grammar first follow ↔
      ClaimsAt grammar first follow ⟨rule, isBehind, column⟩ row := by
  simp only [placedClaims, List.mem_flatMap, Prod.exists, List.mem_zipIdx_iff_getElem?,
    mem_placedClaimsOf]
  constructor
  · rintro ⟨production, number, hproduction, rfl, rfl, hclaim⟩
    cases isBehind with
    | false => exact .next hproduction hclaim.1 hclaim.2
    | true => exact .behind hproduction hclaim.1 hclaim.2
  · intro h
    cases h with
    | next hproduction hnext hne => exact ⟨_, rule, hproduction, rfl, rfl, hnext, hne⟩
    | behind hproduction hnull hbehind => exact ⟨_, rule, hproduction, rfl, rfl, hnull, hbehind⟩

private theorem pairwise_placedClaimsOf (production : Production) (rule : Nat) :
    (placedClaimsOf first follow production rule).Pairwise fun earlier later =>
      compare (placeOf earlier) (placeOf later) = .lt := by
  have hset : ∀ (isBehind : Bool) (set : SymbolSet),
      (set.toList.map fun symbol =>
          (isBehind, (⟨production.lhs, symbol⟩ : Cell Symbol), rule)).Pairwise
        fun earlier later => compare (placeOf earlier) (placeOf later) = .lt := by
    intro isBehind set
    refine List.pairwise_map.mpr (set.sorted.imp fun hlt => ?_)
    exact Place.compare_eq_lt.mpr (.inr ⟨rfl, .inr ⟨rfl, hlt⟩⟩)
  refine List.pairwise_append.mpr ⟨hset false _, ?_, ?_⟩
  · split
    · exact hset true _
    · exact .nil
  · intro earlier hearlier later hlater
    split at hlater
    · obtain ⟨symbol, -, rfl⟩ := List.mem_map.mp hearlier
      obtain ⟨symbol', -, rfl⟩ := List.mem_map.mp hlater
      exact Place.compare_eq_lt.mpr (.inr ⟨rfl, .inl rfl⟩)
    · cases hlater

theorem pairwise_placedClaims : (placedClaims grammar first follow).Pairwise fun earlier later =>
    compare (placeOf earlier) (placeOf later) = .lt := by
  refine List.pairwise_flatMap.mpr ⟨fun numbered _ => pairwise_placedClaimsOf .., ?_⟩
  refine (pairwise_zipIdx grammar.productions).imp fun hlt => ?_
  rintro ⟨isBehind, cell, rule⟩ hearlier ⟨isBehind', cell', rule'⟩ hlater
  obtain ⟨rfl, -⟩ := mem_placedClaimsOf.mp hearlier
  obtain ⟨rfl, -⟩ := mem_placedClaimsOf.mp hlater
  exact Place.compare_eq_lt.mpr (.inl hlt)

/-! ## What is made of the claims -/

theorem claims_iff_mem_claims {nonterminal lookahead : Symbol} {rule : Nat} :
    Claims grammar first follow nonterminal lookahead rule ↔
      (⟨nonterminal, lookahead⟩, rule) ∈ claims grammar first follow := by
  rw [← map_placedClaims, List.mem_map]
  constructor
  · rintro ⟨isBehind, h⟩
    exact ⟨_, mem_placedClaims.mpr h, rfl⟩
  · rintro ⟨⟨isBehind, cell, rule⟩, h, hsame⟩
    cases hsame
    exact ⟨isBehind, mem_placedClaims.mp h⟩

private theorem clash?_eq_some {cell : Cell Symbol} {earlier later : Nat} {conflict : Conflict}
    (h : clash? grammar cell earlier later = some conflict) :
    earlier ≠ later ∧ conflict.nonterminal = cell.row ∧ conflict.lookahead = cell.column ∧
      grammar.production? earlier = some conflict.existing ∧
      grammar.production? later = some conflict.conflicting := by
  unfold clash? at h
  split at h
  · cases h
  · rename_i hne
    obtain ⟨existing, hexisting, h⟩ := Option.bind_eq_some_iff.mp h
    obtain ⟨conflicting, hconflicting, h⟩ := Option.bind_eq_some_iff.mp h
    cases h
    exact ⟨hne, rfl, rfl, hexisting, hconflicting⟩

/-- If claims of one cell clash and no contested place comes before the later one, that one is the
first contest. -/
private theorem firstContest_of_first {place : Place} {nonterminal : Symbol} {existing : Nat}
    (hclaim : ClaimsAt grammar first follow place nonterminal)
    (hexisting : Claims grammar first follow nonterminal place.symbol existing)
    (hlt : existing < place.rule)
    (hfirst : ∀ other row, Contested grammar first follow other row → compare other place ≠ .lt) :
    FirstContest grammar first follow place nonterminal existing where
  contested := ⟨hclaim, existing, hlt, hexisting⟩
  least_rule {other row} hother := by
    by_contra hless
    exact hfirst other row hother (Place.compare_eq_lt.mpr (.inl (Nat.lt_of_not_le hless)))
  first_symbol _ hother := hfirst _ _ hother
  existing_claims := hexisting
  existing_least {rule} hrule := by
    by_contra hless
    obtain ⟨isBehind, hat⟩ := hexisting
    refine hfirst _ _ ⟨hat, rule, Nat.lt_of_not_le hless, hrule⟩ ?_
    exact Place.compare_eq_lt.mpr (.inl hlt)

theorem exists_firstContest {conflict : Conflict}
    (h : ofSets grammar first follow = .error conflict) :
    ∃ place existing,
      FirstContest grammar first follow place conflict.nonterminal existing ∧
      conflict.lookahead = place.symbol ∧
      grammar.production? existing = some conflict.existing ∧
      grammar.production? place.rule = some conflict.conflicting := by
  have hfill := map_eq_error_iff.mp h
  rw [← map_placedClaims] at hfill
  have hclaims : ∀ claim ∈ placedClaims grammar first follow,
      claim.2 ∈ claims grammar first follow := fun claim hclaim =>
    map_placedClaims ▸ List.mem_map_of_mem hclaim
  obtain ⟨⟨isBehind, ⟨row, column⟩, existing⟩, hearlier, ⟨isBehind', cell, rule⟩, hlater, horder,
    hsame, hclash, hfirst⟩ := SortedMap.exists_first_site pairwise_placedClaims (by
      rintro ⟨_, cell, rule⟩ hclaim ⟨_, cell', rule'⟩ hclaim' hcell hnone
      cases hcell
      exact eq_of_clash?_eq_none (hclaims _ hclaim) (hclaims _ hclaim') hnone) hfill
  cases hsame
  obtain ⟨hne, hrow, hcolumn, hexisting, hconflicting⟩ := clash?_eq_some hclash
  have hlt : existing < rule := by
    rcases Place.compare_eq_lt.mp horder with hlt | ⟨hrule, -⟩
    · exact hlt
    · exact absurd hrule hne
  refine ⟨⟨rule, isBehind', column⟩, existing, ?_, hcolumn, hexisting, hconflicting⟩
  rw [hrow]
  refine firstContest_of_first (mem_placedClaims.mp hlater) ⟨isBehind, mem_placedClaims.mp hearlier⟩
    hlt ?_
  rintro ⟨rule', isBehind'', symbol⟩ row' ⟨hclaim, smaller, hsmaller, isBehind₀, hclaimed⟩
  exact hfirst _ (mem_placedClaims.mpr hclaimed) _ (mem_placedClaims.mpr hclaim)
    (Place.compare_eq_lt.mpr (.inl hsmaller)) rfl (Nat.ne_of_lt hsmaller)

/-- For any FIRST and FOLLOW sets, a table is made if and only if no cell is claimed by two
productions, and it holds exactly the claims; otherwise the answer is the conflict at the first
contested place. -/
theorem ofSets_exact (grammar : Grammar) (first : FirstSets) (follow : FollowSets) :
    ((∃ table, ofSets grammar first follow = .ok table) ↔
      ∀ nonterminal lookahead rule rule', Claims grammar first follow nonterminal lookahead rule →
        Claims grammar first follow nonterminal lookahead rule' → rule = rule') ∧
    match ofSets grammar first follow with
    | .ok table => ∀ nonterminal lookahead rule,
        table.rule? nonterminal lookahead = some rule ↔
          Claims grammar first follow nonterminal lookahead rule
    | .error conflict => ∃ place existing,
        FirstContest grammar first follow place conflict.nonterminal existing ∧
        conflict.lookahead = place.symbol ∧
        grammar.production? existing = some conflict.existing ∧
        grammar.production? place.rule = some conflict.conflicting := by
  refine ⟨?_, ?_⟩
  · simp only [ofSets, exists_map_eq_ok_iff, claims_iff_mem_claims]
    rw [SortedMap.exists_fill_iff]
    · exact ⟨fun h nonterminal lookahead => h ⟨nonterminal, lookahead⟩,
        fun h cell => h cell.row cell.column⟩
    · intro cell rule rule' hclaim hclaim'
      constructor
      · exact eq_of_clash?_eq_none hclaim hclaim'
      · rintro rfl
        exact clash?_self grammar cell rule
  · split
    · rename_i table h
      intro nonterminal lookahead rule
      have hparser : Parser.ofSets grammar first follow = .ok ⟨grammar, table⟩ := by
        rw [Parser.ofSets, h]
        rfl
      exact (Parser.rule?_eq_some_iff hparser).trans
        (mem_claims.symm.trans claims_iff_mem_claims.symm)
    · rename_i conflict h
      exact exists_firstContest h

/-- An optional `a` before an `a`. -/
def optionalBefore : Grammar where
  start := .nonterminal "S"
  productions := [
    ⟨.nonterminal "S", [.nonterminal "A", .terminal "a"]⟩,
    ⟨.nonterminal "A", [.epsilon]⟩,
    ⟨.nonterminal "A", [.terminal "a"]⟩]
  wellFormed := Grammar.wellFormed_of_fault?_eq_none (by decide)

/-- The cell was claimed before for FOLLOW, and is claimed again for FIRST. -/
example : ofSets optionalBefore (FirstSets.ofGrammar optionalBefore)
    (FollowSets.ofGrammar optionalBefore (FirstSets.ofGrammar optionalBefore)) =
      .error ⟨.nonterminal "A", .terminal "a", ⟨.nonterminal "A", [.epsilon]⟩,
        ⟨.nonterminal "A", [.terminal "a"]⟩⟩ := by decide +kernel

end TableParsing.Predictive.Table
