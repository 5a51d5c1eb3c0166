import TableParsing.Proofs.Augmentation
import TableParsing.Proofs.Sets.Beginnings
import TableParsing.Proofs.Sets.Follow

/-!
# FOLLOW sets are exact

`Grammar.Adjoins` says what FOLLOW of a nonterminal should hold: the terminals
that stand directly behind it in what some nonterminal derives, and the end
marker if it comes last in a sentential form.  With the FIRST sets of the grammar
this is what the computed FOLLOW sets hold (`FollowSets.mem_ofGrammar_iff_adjoins`).

* Nothing else comes in.  An occurrence passes on what begins the symbols behind
  it, and what is known to stand behind its left-hand side; both are found behind
  the occurrence as well (`FollowSets.adjoins_of_mem_source`).
* Nothing is missing.  A nonterminal and the terminal behind it may come from
  productions far apart, but the sets cover every form on the way: derivations
  keep `FollowSets.Covers`.  For forms that a nonterminal other than the start
  symbol derives, nothing need be known of what can come behind the whole form,
  so a symbol without productions is put there, which nothing begins with
  (`FollowSets.covers_alone`).

The nonterminal that derives the pair need not be reachable.  If all nonterminals
are, then FOLLOW holds exactly the terminals and the end marker that come directly
behind a nonterminal in a sentential form before the end marker
(`Grammar.adjoins_iff_follows`).
-/

namespace TableParsing

/-! ## Occurrences -/

namespace Occurrence

private theorem exists_of_mem_inString {lhs : Symbol} {symbols : List Symbol} {occurrence : Occurrence}
    (h : occurrence ∈ inString lhs symbols) :
    occurrence.lhs = lhs ∧ occurrence.symbol.isNonterminal = true ∧
      ∃ before, symbols = before ++ occurrence.symbol :: occurrence.suffix := by
  fun_induction inString lhs symbols with
  | case1 => cases h
  | case2 symbol rest hkind ih =>
      rcases List.mem_cons.mp h with rfl | hlater
      · exact ⟨rfl, hkind, [], rfl⟩
      · obtain ⟨hlhs, hnonterminal, before, hrest⟩ := ih hlater
        exact ⟨hlhs, hnonterminal, symbol :: before, by rw [hrest, List.cons_append]⟩
  | case3 symbol rest hkind ih =>
      obtain ⟨hlhs, hnonterminal, before, hrest⟩ := ih h
      exact ⟨hlhs, hnonterminal, symbol :: before, by rw [hrest, List.cons_append]⟩

private theorem exists_body_of_mem_inGrammar {grammar : Grammar} {occurrence : Occurrence}
    (h : occurrence ∈ inGrammar grammar) :
    ∃ production ∈ grammar.productions, production.lhs = occurrence.lhs ∧
      occurrence.symbol.isNonterminal = true ∧
      ∃ before, production.body = before ++ occurrence.symbol :: occurrence.suffix := by
  obtain ⟨production, hproduction, hmem⟩ := List.mem_flatMap.mp h
  obtain ⟨hlhs, hkind, before, hrhs⟩ := exists_of_mem_inString hmem
  refine ⟨production, hproduction, hlhs.symm, hkind, before, ?_⟩
  have hnonempty : production.isEpsilon = false := by
    by_contra hepsilon
    have hmark : production.rhs = [.epsilon] := by simpa [Production.isEpsilon] using hepsilon
    have honly : occurrence.symbol = .epsilon := by
      have hin : occurrence.symbol ∈ production.rhs := by simp [hrhs]
      rw [hmark] at hin
      exact List.mem_singleton.mp hin
    rw [honly] at hkind
    cases hkind
  rw [Production.body, hnonempty]
  exact hrhs

end Occurrence

/-! ## What stands behind a symbol -/

namespace Grammar

variable {grammar : Grammar} {symbol member : Symbol}

/-- A symbol stands in some form that the start symbol derives. -/
def Reachable (grammar : Grammar) (symbol : Symbol) : Prop :=
  ∃ before after, grammar.Derives [grammar.start] (before ++ symbol :: after)

/-- A terminal stands directly behind a symbol in what some nonterminal derives; the end marker
stands behind the last symbol of a sentential form. -/
inductive Adjoins (grammar : Grammar) (symbol : Symbol) : Symbol → Prop
  | terminal {origin : Symbol} {before after : List Symbol} {atom : String}
      (horigin : origin ∈ grammar.nonterminals)
      (h : grammar.Derives [origin] (before ++ symbol :: .terminal atom :: after)) :
      Adjoins grammar symbol (.terminal atom)
  | endMarker {before : List Symbol} (h : grammar.Derives [grammar.start] (before ++ [symbol])) :
      Adjoins grammar symbol .endMarker

/-- Two symbols stand side by side in a sentential form with the end marker behind it. -/
def Follows (grammar : Grammar) (symbol member : Symbol) : Prop :=
  ∃ form before after, grammar.Derives [grammar.start] form ∧
    form ++ [.endMarker] = before ++ symbol :: member :: after

theorem adjoins_terminal_iff {atom : String} :
    grammar.Adjoins symbol (.terminal atom) ↔ ∃ origin ∈ grammar.nonterminals,
      ∃ before after, grammar.Derives [origin] (before ++ symbol :: .terminal atom :: after) := by
  constructor
  · intro h
    cases h with
    | terminal horigin hderives => exact ⟨_, horigin, _, _, hderives⟩
  · rintro ⟨origin, horigin, before, after, hderives⟩
    exact .terminal horigin hderives

theorem adjoins_endMarker_iff :
    grammar.Adjoins symbol .endMarker ↔
      ∃ before, grammar.Derives [grammar.start] (before ++ [symbol]) := by
  constructor
  · intro h
    cases h with
    | endMarker hderives => exact ⟨_, hderives⟩
  · rintro ⟨before, hderives⟩
    exact .endMarker hderives

/-- What stands behind a left-hand side stands behind the last symbol of what it derives. -/
theorem Adjoins.inherited {lhs : Symbol} {before : List Symbol} (h : grammar.Adjoins lhs member)
    (hderives : grammar.Derives [lhs] (before ++ [symbol])) : grammar.Adjoins symbol member := by
  cases h with
  | @terminal origin left right atom horigin hpair =>
      have hlonger : grammar.Derives (left ++ lhs :: .terminal atom :: right)
          ((left ++ before) ++ symbol :: .terminal atom :: right) := by
        simpa using hderives.inContext left (.terminal atom :: right)
      exact .terminal horigin (hpair.trans hlonger)
  | @endMarker left hlast =>
      have hlonger : grammar.Derives (left ++ [lhs]) ((left ++ before) ++ [symbol]) := by
        simpa using hderives.append_left left
      exact .endMarker (hlast.trans hlonger)

theorem Derives.endMarker_not_mem {form : List Symbol} (h : grammar.Derives [grammar.start] form) :
    .endMarker ∉ form := by
  have hall : ∀ symbol ∈ form, symbol ≠ .endMarker := by
    apply h.forall_mem (motive := fun symbol => symbol ≠ .endMarker)
    · rintro symbol hsymbol rfl
      have hkind := grammar.start_isNonterminal
      rw [← List.mem_singleton.mp hsymbol] at hkind
      cases hkind
    · rintro production hproduction symbol hsymbol rfl
      rcases terminal_or_nonterminal_of_mem_body hproduction hsymbol with hkind | hkind <;>
        cases hkind
  exact fun hmem => hall _ hmem rfl

/-- If all nonterminals are reachable, the pairs can be found in sentential forms. -/
theorem adjoins_iff_follows
    (hreachable : ∀ symbol ∈ grammar.nonterminals, grammar.Reachable symbol) :
    grammar.Adjoins symbol member ↔
      (member.isTerminal = true ∨ member = .endMarker) ∧ grammar.Follows symbol member := by
  constructor
  · intro h
    cases h with
    | @terminal origin before after atom horigin hpair =>
        obtain ⟨left, right, hstart⟩ := hreachable origin horigin
        have hform : grammar.Derives (left ++ origin :: right)
            ((left ++ before) ++ symbol :: .terminal atom :: (after ++ right)) := by
          simpa using hpair.inContext left right
        exact ⟨.inl rfl, _, left ++ before, after ++ right ++ [.endMarker], hstart.trans hform,
          by simp⟩
    | @endMarker before hlast => exact ⟨.inr rfl, _, before, [], hlast, by simp⟩
  · rintro ⟨hkind, form, before, after, hform, hpair⟩
    -- the last symbol is the end marker, so the pair ends there or lies in the form
    rcases List.eq_nil_or_concat after with rfl | ⟨inner, last, rfl⟩
    · have hends : form ++ [.endMarker] = (before ++ [symbol]) ++ [member] := by simpa using hpair
      obtain ⟨rfl, hmarker⟩ := List.append_inj' hends rfl
      obtain rfl : .endMarker = member := List.head_eq_of_cons_eq hmarker
      exact .endMarker hform
    · have hends : form ++ [.endMarker] = (before ++ symbol :: member :: inner) ++ [last] := by
        simpa using hpair
      obtain ⟨rfl, -⟩ := List.append_inj' hends rfl
      rcases hkind with hterminal | rfl
      · cases member with
        | terminal atom => exact .terminal start_mem_nonterminals hform
        | epsilon | nonterminal | endMarker => cases hterminal
      · exact absurd (by simp) hform.endMarker_not_mem

end Grammar

namespace FollowSets

open SymbolFamily

variable {grammar : Grammar} {follow : FollowSets}

/-! ## Nothing else comes in -/

/-- The members of every set stand behind the symbol of the set. -/
def Sound (grammar : Grammar) (family : SymbolFamily) : Prop := ContainedIn grammar.Adjoins family

/-- An occurrence passes on what stands behind it. -/
theorem adjoins_of_mem_source {occurrence : Occurrence}
    (hoccurrence : occurrence ∈ Occurrence.inGrammar grammar) {family : SymbolFamily}
    (h : Sound grammar family) {member : Symbol}
    (hmember : member ∈ (inclusion (FirstSets.ofGrammar grammar) occurrence).source family) :
    grammar.Adjoins occurrence.symbol member := by
  obtain ⟨production, hproduction, hlhs, _, before, hbody⟩ :=
    Occurrence.exists_body_of_mem_inGrammar hoccurrence
  have hsuffix : ∀ symbol ∈ occurrence.suffix,
      symbol.isTerminal = true ∨ symbol.isNonterminal = true := by
    intro symbol hsymbol
    refine Grammar.terminal_or_nonterminal_of_mem_body hproduction ?_
    rw [hbody]
    exact List.mem_append_right _ (List.mem_cons_of_mem _ hsymbol)
  have hderives : grammar.Derives [occurrence.lhs]
      (before ++ occurrence.symbol :: occurrence.suffix) := by
    rw [← hlhs, ← hbody]
    simpa using Grammar.derives_body hproduction [] []
  rcases mem_source.mp hmember with hnext | ⟨hnull, hlower⟩
  · obtain ⟨hnext, hne⟩ := FirstSets.mem_visible.mp hnext
    cases (FirstSets.mem_ofString_iff_begins hsuffix).mp hnext with
    | @terminal atom rest hbehind =>
        have horigin : occurrence.lhs ∈ grammar.nonterminals :=
          Grammar.mem_nonterminals.mpr ⟨production, hproduction, hlhs⟩
        have hpair : grammar.Derives (before ++ occurrence.symbol :: occurrence.suffix)
            (before ++ occurrence.symbol :: .terminal atom :: rest) := by
          simpa using hbehind.append_left (before ++ [occurrence.symbol])
        exact .terminal horigin (hderives.trans hpair)
    | epsilon => exact absurd rfl hne
  · have hvanishes : grammar.Derives occurrence.suffix [] :=
      Grammar.begins_epsilon_iff.mp ((FirstSets.mem_ofString_iff_begins hsuffix).mp hnull)
    have hlast : grammar.Derives (before ++ occurrence.symbol :: occurrence.suffix)
        (before ++ [occurrence.symbol]) := by
      simpa using hvanishes.append_left (before ++ [occurrence.symbol])
    exact (h _ member hlower).inherited (hderives.trans hlast)

theorem sound_seed (grammar : Grammar) : Sound grammar (seed grammar).family := by
  refine containedIn_ofKeys fun symbol member hmember => ?_
  split at hmember
  · rename_i hstart
    have hmarker : member = .endMarker := SortedSet.mem_singleton.mp hmember
    subst hmarker hstart
    have hlast : grammar.Derives [grammar.start] ([] ++ [grammar.start]) := Grammar.Derives.refl _
    exact .endMarker hlast
  · exact absurd hmember (SortedSet.not_mem_empty _)

theorem sound_ofGrammar (grammar : Grammar) :
    Sound grammar (ofGrammar grammar (FirstSets.ofGrammar grammar)).family := by
  refine Inclusion.containedIn_saturated (sound_seed grammar) ?_
  intro demand hdemand family hfamily member hmember
  obtain ⟨occurrence, hoccurrence, rfl⟩ := List.mem_map.mp hdemand
  exact adjoins_of_mem_source hoccurrence hfamily hmember

/-! ## Nothing is missing -/

/-- Nothing is known to begin a symbol without productions. -/
theorem not_mem_ofString_augmentedStart (member : Symbol) :
    member ∉ (FirstSets.ofGrammar grammar).ofString [grammar.augmentedStart] := by
  have hnew : grammar.augmentedStart ∉ (FirstSets.ofGrammar grammar).family.keys := by
    rw [FirstSets.mem_keys_ofGrammar]
    rintro (hterminal | hnonterminal)
    · cases (Grammar.mem_terminals.mp hterminal).1
    · exact grammar.augmentedStart_not_mem_nonterminals hnonterminal
  have hempty : (FirstSets.ofGrammar grammar).setOf grammar.augmentedStart = ∅ :=
    SymbolFamily.setOf_eq_empty hnew
  rw [Grammar.augmentedStart, FirstSets.mem_ofString_nonterminal, ← Grammar.augmentedStart, hempty]
  simp

/-- A symbol is covered where nothing is known to come behind it. -/
theorem covers_alone (follow : FollowSets) (symbol : Symbol) :
    Covers (FirstSets.ofGrammar grammar) follow [grammar.augmentedStart] [symbol] :=
  ⟨fun _ member hmember => absurd hmember (not_mem_ofString_augmentedStart member), trivial⟩

/-- What comes directly behind a nonterminal of a covered form is in its set. -/
theorem Covers.mem_setOf {first : FirstSets} {tail before after : List Symbol}
    {symbol member : Symbol} (h : Covers first follow tail (before ++ symbol :: after))
    (hkind : symbol.isNonterminal = true) (hmember : member ∈ first.ofString (after ++ tail)) :
    member ∈ follow.setOf symbol :=
  (covers_append.mp h).2.1 hkind member hmember

theorem Closed.mem_setOf_of_adjoins (h : Closed grammar (FirstSets.ofGrammar grammar) follow)
    {symbol member : Symbol} (hkind : symbol.isNonterminal = true)
    (hadjoins : grammar.Adjoins symbol member) : member ∈ follow.setOf symbol := by
  have hfirst := FirstSets.ofGrammar_closed grammar
  cases hadjoins with
  | terminal horigin hderives =>
      have hcovers := h.covers_of_derives hfirst hderives (covers_alone follow _)
      exact hcovers.mem_setOf hkind (SortedSet.mem_singleton.mpr rfl)
  | endMarker hderives =>
      have hcovers := h.covers_of_derives hfirst hderives h.covers_start
      exact hcovers.mem_setOf hkind (SortedSet.mem_singleton.mpr rfl)

theorem mem_ofGrammar_iff_adjoins {symbol member : Symbol} (h : symbol ∈ grammar.nonterminals) :
    member ∈ (ofGrammar grammar (FirstSets.ofGrammar grammar)).setOf symbol ↔
      grammar.Adjoins symbol member := by
  obtain ⟨production, hproduction, rfl⟩ := Grammar.mem_nonterminals.mp h
  exact ⟨sound_ofGrammar grammar _ member, (ofGrammar_closed grammar _).mem_setOf_of_adjoins
    (Grammar.lhs_isNonterminal hproduction)⟩

/-! ## The computation -/

theorem saturates (grammar : Grammar) (first : FirstSets) (follow : FollowSets) :
    Saturates (pass grammar first) (fun follow => follow.family.cardinality) follow
      (saturate grammar first follow) :=
  (Inclusion.growth_saturates follow.family).map FollowSets.mk (fun _ => rfl) fun _ => rfl

theorem target_mem_nonterminals {first : FirstSets} :
    ∀ demand ∈ (Occurrence.inGrammar grammar).map (inclusion first),
      demand.target ∈ grammar.nonterminals := by
  intro demand hdemand
  obtain ⟨occurrence, hoccurrence, rfl⟩ := List.mem_map.mp hdemand
  obtain ⟨production, hproduction, _, hkind, before, hbody⟩ :=
    Occurrence.exists_body_of_mem_inGrammar hoccurrence
  have hmem : occurrence.symbol ∈ production.body := by
    rw [hbody]
    exact List.mem_append_right _ List.mem_cons_self
  exact Grammar.mem_nonterminals_of_mem_body hproduction hmem hkind

theorem mem_keys_ofGrammar {first : FirstSets} {symbol : Symbol} :
    symbol ∈ (ofGrammar grammar first).family.keys ↔ symbol ∈ grammar.nonterminals := by
  have hseed : (seed grammar).family.keys = grammar.nonterminals := SortedMap.keys_ofKeys _ _
  rw [← hseed]
  apply Inclusion.mem_keys_saturated
  rw [hseed]
  exact target_mem_nonterminals

/-- The computation of the FOLLOW sets ends, with a set for each nonterminal.  It holds the
terminals that stand directly behind the nonterminal in what any nonterminal derives, the end marker
if the nonterminal comes last in a sentential form, and nothing else.  If every nonterminal is reachable,
these are the terminals and the end marker directly behind it in sentential forms before the end
marker. -/
theorem follow_exact (grammar : Grammar) :
    Saturates (pass grammar (FirstSets.ofGrammar grammar)) (fun follow => follow.family.cardinality)
        (seed grammar) (computation grammar (FirstSets.ofGrammar grammar)) ∧
      (∀ symbol, symbol ∈ (ofGrammar grammar (FirstSets.ofGrammar grammar)).family.keys ↔
        symbol ∈ grammar.nonterminals) ∧
      (∀ symbol ∈ grammar.nonterminals,
        (∀ atom, .terminal atom ∈
            (ofGrammar grammar (FirstSets.ofGrammar grammar)).setOf symbol ↔
          ∃ origin ∈ grammar.nonterminals, ∃ before after,
            grammar.Derives [origin] (before ++ symbol :: .terminal atom :: after)) ∧
        (.endMarker ∈ (ofGrammar grammar (FirstSets.ofGrammar grammar)).setOf symbol ↔
          ∃ before, grammar.Derives [grammar.start] (before ++ [symbol])) ∧
        ∀ member ∈ (ofGrammar grammar (FirstSets.ofGrammar grammar)).setOf symbol,
          member.isTerminal = true ∨ member = .endMarker) ∧
      ((∀ symbol ∈ grammar.nonterminals, grammar.Reachable symbol) →
        ∀ symbol ∈ grammar.nonterminals, ∀ member,
          member ∈ (ofGrammar grammar (FirstSets.ofGrammar grammar)).setOf symbol ↔
            (member.isTerminal = true ∨ member = .endMarker) ∧ grammar.Follows symbol member) := by
  refine ⟨saturates grammar _ _, fun symbol => mem_keys_ofGrammar, fun symbol hsymbol => ?_,
    fun hreachable symbol hsymbol member => ?_⟩
  · refine ⟨fun atom => ?_, ?_, fun member hmember => ?_⟩
    · rw [mem_ofGrammar_iff_adjoins hsymbol, Grammar.adjoins_terminal_iff]
    · rw [mem_ofGrammar_iff_adjoins hsymbol, Grammar.adjoins_endMarker_iff]
    · cases (mem_ofGrammar_iff_adjoins hsymbol).mp hmember with
      | terminal => exact .inl rfl
      | endMarker => exact .inr rfl
  · rw [mem_ofGrammar_iff_adjoins hsymbol, Grammar.adjoins_iff_follows hreachable]

/-- A `C` that ends an `A` comes to stand before a `C` that begins a `B`. -/
def neighbours : Grammar where
  start := .nonterminal "S"
  productions := [
    ⟨.nonterminal "S", [.nonterminal "A", .nonterminal "B"]⟩,
    ⟨.nonterminal "A", [.terminal "a", .nonterminal "C"]⟩,
    ⟨.nonterminal "B", [.nonterminal "C", .terminal "d"]⟩,
    ⟨.nonterminal "C", [.terminal "c"]⟩,
    ⟨.nonterminal "C", [.epsilon]⟩]
  wellFormed := Grammar.wellFormed_of_fault?_eq_none (by decide)

theorem neighbours_reachable :
    ∀ symbol ∈ neighbours.nonterminals, neighbours.Reachable symbol := by
  have hS : (⟨.nonterminal "S", [.nonterminal "A", .nonterminal "B"]⟩ : Production) ∈
      neighbours.productions := by decide
  have hA : (⟨.nonterminal "A", [.terminal "a", .nonterminal "C"]⟩ : Production) ∈
      neighbours.productions := by decide
  have hpair : neighbours.Derives [.nonterminal "S"] [.nonterminal "A", .nonterminal "B"] :=
    Grammar.derives_body hS [] []
  intro symbol hsymbol
  obtain ⟨production, hproduction, rfl⟩ := Grammar.mem_nonterminals.mp hsymbol
  simp only [neighbours, List.mem_cons, List.not_mem_nil, or_false] at hproduction
  rcases hproduction with rfl | rfl | rfl | rfl | rfl
  · exact ⟨[], [], Grammar.Derives.refl _⟩
  · exact ⟨[], [.nonterminal "B"], hpair⟩
  · exact ⟨[.nonterminal "A"], [], hpair⟩
  all_goals
    exact ⟨[.terminal "a"], [.nonterminal "B"],
      hpair.trans (Grammar.derives_body hA [] [.nonterminal "B"])⟩

/-- In `neighbours` a `c` comes behind some `C`, although no production puts it there; no `a` does,
and no sentential form ends with `C`. -/
theorem follow_exact_neighbours :
    (∀ symbol ∈ neighbours.nonterminals, neighbours.Reachable symbol) ∧
      .nonterminal "C" ∈ neighbours.nonterminals ∧
      neighbours.Follows (.nonterminal "C") (.terminal "c") ∧
      ¬ neighbours.Follows (.nonterminal "C") (.terminal "a") ∧
      ¬ ∃ before, neighbours.Derives [neighbours.start] (before ++ [.nonterminal "C"]) := by
  obtain ⟨_, _, hsets, hfollows⟩ := follow_exact neighbours
  have hC : .nonterminal "C" ∈ neighbours.nonterminals := by decide
  have hset : (ofGrammar neighbours (FirstSets.ofGrammar neighbours)).setOf (.nonterminal "C") =
      {.terminal "c"} ∪ {.terminal "d"} := by decide +kernel
  obtain ⟨_, hlast, _⟩ := hsets _ hC
  have hbehind := hfollows neighbours_reachable _ hC
  rw [hset] at hlast hbehind
  refine ⟨neighbours_reachable, hC, ((hbehind _).mp (by decide)).2, fun hfollows => ?_, ?_⟩
  · exact absurd ((hbehind (.terminal "a")).mpr ⟨.inl rfl, hfollows⟩) (by decide)
  · rw [← hlast]
    decide

end FollowSets

end TableParsing
