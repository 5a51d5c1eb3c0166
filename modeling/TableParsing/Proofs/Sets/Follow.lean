import TableParsing.Proofs.Sets.First
import TableParsing.Sets.Follow

/-!
# FOLLOW sets along derivations

`FollowSets.Covers tail form` says that FOLLOW of every nonterminal in `form`
holds whatever can come next when `tail` stands behind the form.  Sets that
satisfy the demands of a grammar's occurrences of nonterminals
(`FollowSets.Closed`), as the computed ones do, cover the start symbol before the
end marker, and every step of a derivation keeps the property
(`Closed.covers_of_derives`).  So a nonterminal of a sentential form has in its
FOLLOW set every symbol with which a word derived from the symbols behind it can
begin: this is the only fact about FOLLOW sets that the parsers rest on.
-/

namespace TableParsing.FollowSets

variable {grammar : Grammar} {first : FirstSets} {follow : FollowSets}

/-- The end marker is in the set of the start symbol, and the set of each nonterminal includes what
its occurrences demand. -/
structure Closed (grammar : Grammar) (first : FirstSets) (follow : FollowSets) : Prop where
  start : .endMarker ∈ follow.setOf grammar.start
  visible : ∀ occurrence ∈ Occurrence.inGrammar grammar,
    ∀ member ∈ FirstSets.visible (first.ofString occurrence.suffix),
      member ∈ follow.setOf occurrence.symbol
  inherited : ∀ occurrence ∈ Occurrence.inGrammar grammar,
    .epsilon ∈ first.ofString occurrence.suffix →
      ∀ member ∈ follow.setOf occurrence.lhs, member ∈ follow.setOf occurrence.symbol

/-- The set of every nonterminal of a form holds what can come next when `tail` stands behind the
form. -/
def Covers (first : FirstSets) (follow : FollowSets) (tail : List Symbol) : List Symbol → Prop
  | [] => True
  | symbol :: rest =>
    (symbol.isNonterminal = true →
      ∀ member ∈ first.ofString (rest ++ tail), member ∈ follow.setOf symbol) ∧
      Covers first follow tail rest

theorem covers_append {tail front back : List Symbol} :
    Covers first follow tail (front ++ back) ↔
      Covers first follow (back ++ tail) front ∧ Covers first follow tail back := by
  induction front with
  | nil => simp [Covers]
  | cons symbol rest ih => simp only [List.cons_append, Covers, ih, List.append_assoc, and_assoc]

/-- With fewer symbols to come next a form is still covered. -/
theorem Covers.of_subset {tail other form : List Symbol} (h : Covers first follow tail form)
    (hsubset : ∀ member ∈ first.ofString other, member ∈ first.ofString tail) :
    Covers first follow other form := by
  induction form with
  | nil => exact h
  | cons symbol rest ih =>
      refine ⟨fun hkind member hmember => h.1 hkind member ?_, ih h.2⟩
      have hpart : member ∈ first.ofString (rest ++ other ++ []) := by simpa using hmember
      simpa using FirstSets.mem_ofString_of_part hsubset hpart

/-! ## Closed sets -/

theorem mem_inGrammar {production : Production} (h : production ∈ grammar.productions)
    {occurrence : Occurrence}
    (hmem : occurrence ∈ Occurrence.inString production.lhs production.rhs) :
    occurrence ∈ Occurrence.inGrammar grammar :=
  List.mem_flatMap.mpr ⟨production, h, hmem⟩

/-- A string all of whose occurrences are known is covered where its left-hand side is. -/
theorem Closed.covers_of_occurrences (h : Closed grammar first follow) {lhs : Symbol}
    {tail : List Symbol} (htail : ∀ member ∈ first.ofString tail, member ∈ follow.setOf lhs)
    {symbols : List Symbol}
    (hknown : ∀ occurrence ∈ Occurrence.inString lhs symbols,
      occurrence ∈ Occurrence.inGrammar grammar) : Covers first follow tail symbols := by
  induction symbols with
  | nil => trivial
  | cons symbol rest ih =>
      have hrest : ∀ occurrence ∈ Occurrence.inString lhs rest,
          occurrence ∈ Occurrence.inGrammar grammar := by
        intro occurrence hoccurrence
        apply hknown
        unfold Occurrence.inString
        split
        · exact List.mem_cons_of_mem _ hoccurrence
        · exact hoccurrence
      refine ⟨fun hkind member hmember => ?_, ih hrest⟩
      have hin : (⟨lhs, symbol, rest⟩ : Occurrence) ∈ Occurrence.inGrammar grammar := by
        apply hknown
        rw [Occurrence.inString, if_pos hkind]
        exact List.mem_cons_self
      -- what can come next begins the suffix, or stands behind a suffix that vanishes
      rcases FirstSets.mem_ofString_append.mp hmember with ⟨hsuffix, hvisible⟩ | ⟨hnull, hbehind⟩
      · exact h.visible _ hin member (FirstSets.mem_visible.mpr ⟨hsuffix, hvisible⟩)
      · exact h.inherited _ hin hnull member (htail member hbehind)

theorem Closed.covers_body (h : Closed grammar first follow) {production : Production}
    (hproduction : production ∈ grammar.productions) {tail : List Symbol}
    (htail : ∀ member ∈ first.ofString tail, member ∈ follow.setOf production.lhs) :
    Covers first follow tail production.body := by
  unfold Production.body
  split
  · trivial
  · exact h.covers_of_occurrences htail fun occurrence => mem_inGrammar hproduction

theorem Closed.covers_of_produces (h : Closed grammar first follow) (hfirst : first.Closed grammar)
    {tail before after : List Symbol} (hstep : grammar.Produces before after)
    (hcovers : Covers first follow tail before) : Covers first follow tail after := by
  obtain @⟨production, hproduction, left, right⟩ := hstep
  obtain ⟨hleft, hlhs, hright⟩ := covers_append.mp hcovers
  have hbody : ∀ member ∈ first.ofString production.body,
      member ∈ first.ofString [production.lhs] := by
    intro member hmember
    rw [FirstSets.ofString_body] at hmember
    apply (FirstSets.mem_ofString_lhs hproduction).mpr
    exact hfirst production hproduction member hmember
  rw [covers_append, covers_append]
  refine ⟨⟨hleft.of_subset fun member hmember => ?_, ?_⟩, hright⟩
  · have hpart : member ∈ first.ofString ([] ++ production.body ++ (right ++ tail)) := by
      simpa using hmember
    simpa using FirstSets.mem_ofString_of_part hbody hpart
  · exact h.covers_body hproduction (hlhs (Grammar.lhs_isNonterminal hproduction))

theorem Closed.covers_of_derives (h : Closed grammar first follow) (hfirst : first.Closed grammar)
    {tail before after : List Symbol} (hderives : grammar.Derives before after)
    (hcovers : Covers first follow tail before) : Covers first follow tail after :=
  hderives.preserves hcovers fun _ _ hstep hform => h.covers_of_produces hfirst hstep hform

/-- Before the end marker the start symbol is covered. -/
theorem Closed.covers_start (h : Closed grammar first follow) :
    Covers first follow [.endMarker] [grammar.start] := by
  refine ⟨fun _ member hmember => ?_, trivial⟩
  have hmarker : member = .endMarker := SortedSet.mem_singleton.mp hmember
  exact hmarker ▸ h.start

/-- The symbol that a word behind a nonterminal begins with is in FOLLOW of the nonterminal. -/
theorem Closed.nextOf_mem (hfirst : first.Closed grammar) {symbol : Symbol}
    {rest word : List Symbol} (hcovers : Covers first follow [.endMarker] (symbol :: rest))
    (hkind : symbol.isNonterminal = true) (hderives : grammar.Derives rest word)
    (hword : IsWord word) : nextOf word ∈ follow.setOf symbol :=
  hcovers.1 hkind _ (hfirst.nextOf_mem_ofString hderives hword)

/-! ## The computed sets -/

/-- An occurrence demands what begins the suffix and, if the suffix can vanish, the set of the
left-hand side. -/
theorem mem_source {occurrence : Occurrence} {family : SymbolFamily} {member : Symbol} :
    member ∈ (inclusion first occurrence).source family ↔
      member ∈ FirstSets.visible (first.ofString occurrence.suffix) ∨
        .epsilon ∈ first.ofString occurrence.suffix ∧ member ∈ family.setOf occurrence.lhs := by
  simp only [inclusion]
  split
  · rename_i hnull
    simp only [SortedSet.mem_union, hnull, true_and]
  · rename_i hnull
    simp only [hnull, false_and, or_false]

theorem inclusion_monotone (first : FirstSets) (occurrence : Occurrence) :
    (inclusion first occurrence).Monotone := by
  intro small large hbelow member hmember
  rcases mem_source.mp hmember with hnext | ⟨hnull, hlhs⟩
  · exact mem_source.mpr (.inl hnext)
  · exact mem_source.mpr (.inr ⟨hnull, hbelow _ member hlhs⟩)

/-- The sets include the seed if they have the end marker behind the start symbol. -/
theorem seed_below_iff : SymbolFamily.Below (seed grammar).family follow.family ↔
    .endMarker ∈ follow.setOf grammar.start := by
  constructor
  · intro h
    apply h
    have hseed : (seed grammar).family.get? grammar.start = some {.endMarker} := by
      rw [seed, SortedMap.get?_ofKeys, if_pos Grammar.start_mem_nonterminals, if_pos rfl]
    rw [SymbolFamily.setOf, hseed]
    exact SortedSet.mem_singleton.mpr rfl
  · intro h
    refine SymbolFamily.containedIn_ofKeys fun symbol member hmember => ?_
    split at hmember
    · rename_i hstart
      rw [SortedSet.mem_singleton.mp hmember, hstart]
      exact h
    · exact absurd hmember (SortedSet.not_mem_empty _)

/-- Closed are the sets that include the seed and what every occurrence demands. -/
theorem closed_iff_source_subset : Closed grammar first follow ↔
    SymbolFamily.Below (seed grammar).family follow.family ∧
      ∀ occurrence ∈ Occurrence.inGrammar grammar,
        ∀ member ∈ (inclusion first occurrence).source follow.family,
          member ∈ follow.setOf occurrence.symbol := by
  constructor
  · intro h
    refine ⟨seed_below_iff.mpr h.start, fun occurrence hoccurrence member hmember => ?_⟩
    rcases mem_source.mp hmember with hnext | ⟨hnull, hlhs⟩
    · exact h.visible occurrence hoccurrence member hnext
    · exact h.inherited occurrence hoccurrence hnull member hlhs
  · rintro ⟨hseed, hsource⟩
    exact {
      start := seed_below_iff.mp hseed
      visible := fun occurrence hoccurrence member hmember =>
        hsource occurrence hoccurrence member (mem_source.mpr (.inl hmember))
      inherited := fun occurrence hoccurrence hnull member hmember =>
        hsource occurrence hoccurrence member (mem_source.mpr (.inr ⟨hnull, hmember⟩)) }

theorem ofGrammar_closed (grammar : Grammar) (first : FirstSets) :
    Closed grammar first (ofGrammar grammar first) :=
  closed_iff_source_subset.mpr ⟨Inclusion.below_saturated (seed grammar).family,
    fun occurrence hoccurrence _ hmember =>
      Inclusion.source_subset_saturated _ (List.mem_map_of_mem hoccurrence)
        (inclusion_monotone first occurrence) hmember⟩

end TableParsing.FollowSets
