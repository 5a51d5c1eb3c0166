import TableParsing.Proofs.Sets.Adjacency
import TableParsing.ShiftReduce.Table

/-!
# The sets of an augmented grammar

An automaton belongs to the augmented grammar, while its table is made with the
FOLLOW sets of the grammar itself.  Augmenting starts the passes from other seeds
and adds a production with an occurrence of the old start symbol, which may stand
in bodies as well.  All the same, the symbols of the grammar keep their FIRST and
FOLLOW sets: what strings without the new symbol derive stays the same, and behind
the old start symbol stands the end marker in either grammar.

A table asks for FOLLOW of the symbols of the grammar only
(`ShiftReduce.Table.ofFollow_congr`), so that both kinds of FOLLOW sets make the
same table or meet the same first conflict (`augmented_agrees`).
-/

namespace TableParsing

variable {grammar : Grammar} {symbol member : Symbol}

/-! ## Derivations -/

namespace Grammar

private theorem augmentedStart_not_mem_singleton
    (h : symbol ∈ grammar.terminals ∨ symbol ∈ grammar.nonterminals) :
    grammar.augmentedStart ∉ [symbol] := by
  rw [List.mem_singleton]
  rintro rfl
  rcases h with hterminal | hnonterminal
  · cases (Grammar.mem_terminals.mp hterminal).1
  · exact grammar.augmentedStart_not_mem_nonterminals hnonterminal

theorem begins_augmented_iff {symbols : List Symbol} (h : grammar.augmentedStart ∉ symbols) :
    grammar.augmented.Begins symbols member ↔ grammar.Begins symbols member := by
  constructor
  · intro hbegins
    cases hbegins with
    | terminal hderives => exact .terminal (hderives.of_augmented h).1
    | epsilon hderives => exact .epsilon (hderives.of_augmented h).1
  · intro hbegins
    cases hbegins with
    | terminal hderives => exact .terminal hderives.augmented
    | epsilon hderives => exact .epsilon hderives.augmented

/-- The added production puts the end marker behind the old start symbol, where it stood before, and
nothing behind other symbols of the grammar. -/
theorem adjoins_augmented_iff (h : symbol ∈ grammar.nonterminals) :
    grammar.augmented.Adjoins symbol member ↔ grammar.Adjoins symbol member := by
  constructor
  · intro hadjoins
    cases hadjoins with
    | @terminal origin before after atom horigin hderives =>
        rcases mem_nonterminals_augmented.mp horigin with hold | rfl
        · have hnone := augmentedStart_not_mem_singleton (.inr hold)
          exact .terminal hold (hderives.of_augmented hnone).1
        · rcases derives_of_augmented_derives hderives with hself | ⟨_, hstart⟩
          · have hlength := congrArg List.length hself
            simp only [List.length_append, List.length_cons, List.length_nil] at hlength
            omega
          · exact .terminal start_mem_nonterminals hstart
    | @endMarker before hderives =>
        rcases derives_of_augmented_derives hderives with hself | ⟨_, hstart⟩
        · have hmem : symbol ∈ [grammar.augmentedStart] := hself ▸ by simp
          rw [List.mem_singleton.mp hmem] at h
          exact absurd h grammar.augmentedStart_not_mem_nonterminals
        · exact .endMarker hstart
  · intro hadjoins
    cases hadjoins with
    | terminal horigin hderives =>
        exact .terminal (mem_nonterminals_augmented.mpr (.inl horigin)) hderives.augmented
    | endMarker hderives =>
        exact .endMarker (grammar.augmented_derives_start.trans hderives.augmented)

end Grammar

/-! ## Sets -/

theorem FirstSets.get?_augmented (h : symbol ∈ grammar.terminals ∨ symbol ∈ grammar.nonterminals) :
    (ofGrammar grammar.augmented).get? symbol = (ofGrammar grammar).get? symbol := by
  have hown : symbol ∈ grammar.augmented.terminals ∨ symbol ∈ grammar.augmented.nonterminals := by
    rw [Grammar.terminals_augmented, Grammar.mem_nonterminals_augmented]
    exact h.imp_right .inl
  apply SymbolFamily.get?_congr
  · simp only [mem_keys_ofGrammar, h, hown]
  · intro _ member
    exact (mem_setOf_iff_begins hown).trans
      ((Grammar.begins_augmented_iff (Grammar.augmentedStart_not_mem_singleton h)).trans
        (mem_setOf_iff_begins h).symm)

theorem FollowSets.get?_augmented (h : symbol ∈ grammar.nonterminals) :
    (ofGrammar grammar.augmented (FirstSets.ofGrammar grammar.augmented)).get? symbol =
      (ofGrammar grammar (FirstSets.ofGrammar grammar)).get? symbol := by
  have hown : symbol ∈ grammar.augmented.nonterminals :=
    Grammar.mem_nonterminals_augmented.mpr (.inl h)
  apply SymbolFamily.get?_congr
  · simp only [mem_keys_ofGrammar, h, hown]
  · intro _ member
    exact (mem_ofGrammar_iff_adjoins hown).trans
      ((Grammar.adjoins_augmented_iff h).trans (mem_ofGrammar_iff_adjoins h).symm)

/-! ## Tables -/

namespace ShiftReduce.Table

variable {follow follow' : FollowSets}

/-- An item asks for FOLLOW of the left-hand side of a production of the grammar. -/
private theorem itemDemands_congr (h : ∀ symbol ∈ grammar.nonterminals, follow.get? symbol = follow'.get? symbol)
    (state : Nat) (item : Item) :
    itemDemands (.ofGrammar grammar) follow state item =
      itemDemands (.ofGrammar grammar) follow' state item := by
  unfold itemDemands
  split
  · rfl
  · split
    · rfl
    · rename_i hrule
      split
      · rename_i production hproduction
        have hmem := Grammar.mem_of_production? (Grammar.production?_of_augmented hproduction hrule)
        have hlhs : follow.get? production.lhs = follow'.get? production.lhs :=
          h _ (Grammar.mem_nonterminals.mpr ⟨production, hmem, rfl⟩)
        have hset : follow.setOf production.lhs = follow'.setOf production.lhs :=
          congrArg (fun found : Option SymbolSet => found.getD ∅) hlhs
        rw [hset]
      · rfl

/-- A table depends on FOLLOW of the nonterminals of the grammar only. -/
theorem ofFollow_congr
    (h : ∀ symbol ∈ grammar.nonterminals, follow.get? symbol = follow'.get? symbol) :
    ofFollow (.ofGrammar grammar) follow = ofFollow (.ofGrammar grammar) follow' := by
  have hitems : itemDemands (.ofGrammar grammar) follow = itemDemands (.ofGrammar grammar) follow' :=
    funext fun state => funext fun item => itemDemands_congr h state item
  rw [ofFollow, ofFollow, demands, demands, hitems]

end ShiftReduce.Table

/-- The FIRST sets of a grammar and of the augmented one agree on all symbols of the grammar, and
their FOLLOW sets on all its nonterminals.  The automaton makes the same table, or meets the same
first conflict, with either FOLLOW sets. -/
theorem augmented_agrees (grammar : Grammar) :
    (∀ symbol, symbol ∈ grammar.terminals ∨ symbol ∈ grammar.nonterminals →
      (FirstSets.ofGrammar grammar.augmented).get? symbol =
        (FirstSets.ofGrammar grammar).get? symbol) ∧
    (∀ symbol ∈ grammar.nonterminals,
      (FollowSets.ofGrammar grammar.augmented (FirstSets.ofGrammar grammar.augmented)).get? symbol =
        (FollowSets.ofGrammar grammar (FirstSets.ofGrammar grammar)).get? symbol) ∧
    ShiftReduce.Table.ofFollow (.ofGrammar grammar)
        (FollowSets.ofGrammar grammar.augmented (FirstSets.ofGrammar grammar.augmented)) =
      ShiftReduce.Table.ofFollow (.ofGrammar grammar)
        (FollowSets.ofGrammar grammar (FirstSets.ofGrammar grammar)) :=
  ⟨fun _ => FirstSets.get?_augmented, fun _ => FollowSets.get?_augmented,
    ShiftReduce.Table.ofFollow_congr fun _ => FollowSets.get?_augmented⟩

end TableParsing
