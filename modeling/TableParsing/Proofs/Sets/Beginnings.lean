import TableParsing.Proofs.Sets.First

/-!
# FIRST sets are exact

FIRST of a string is read off the sets of its symbols, and the sets come out of
passes that write what they read.  `Grammar.Begins` says what they should hold:
the terminals at the front of what the string derives, and the mark of the empty
string if it derives the empty string.  With the computed sets this is what FIRST
of a string holds (`FirstSets.mem_ofString_iff_begins`).

* Nothing else comes in.  A family whose members begin what their symbols derive
  makes FIRST of a string begin what the string derives
  (`FirstSets.begins_of_mem_ofString`); so every inclusion, hence every pass, keeps
  the family that way.
* Nothing is missing.  The outcome satisfies the demands of the productions, and
  so FIRST only shrinks along a derivation.

Unreachable nonterminals, and those that derive no word, are no exception.
-/

namespace TableParsing

namespace Grammar

variable {grammar : Grammar} {symbols front back : List Symbol} {member : Symbol}

/-- A string of terminals and nonterminals of a grammar. -/
def IsForm (grammar : Grammar) (symbols : List Symbol) : Prop :=
  ∀ symbol ∈ symbols, symbol ∈ grammar.terminals ∨ symbol ∈ grammar.nonterminals

instance : Decidable (grammar.IsForm symbols) :=
  inferInstanceAs (Decidable (∀ symbol ∈ symbols, _))

/-- A symbol begins what a string derives: a terminal stands at the front of it, and the mark of the
empty string stands for the empty string. -/
inductive Begins (grammar : Grammar) (symbols : List Symbol) : Symbol → Prop
  | terminal {atom : String} {rest : List Symbol}
      (h : grammar.Derives symbols (.terminal atom :: rest)) :
      Begins grammar symbols (.terminal atom)
  | epsilon (h : grammar.Derives symbols []) : Begins grammar symbols .epsilon

theorem begins_terminal_iff {atom : String} :
    grammar.Begins symbols (.terminal atom) ↔
      ∃ rest, grammar.Derives symbols (.terminal atom :: rest) := by
  constructor
  · intro h
    cases h with
    | terminal hderives => exact ⟨_, hderives⟩
  · rintro ⟨rest, hderives⟩
    exact .terminal hderives

theorem begins_epsilon_iff : grammar.Begins symbols .epsilon ↔ grammar.Derives symbols [] := by
  constructor
  · intro h
    cases h with
    | epsilon hderives => exact hderives
  · exact .epsilon

theorem Begins.of_derives (h : grammar.Derives front back) (hback : grammar.Begins back member) :
    grammar.Begins front member := by
  cases hback with
  | terminal hderives => exact .terminal (h.trans hderives)
  | epsilon hderives => exact .epsilon (h.trans hderives)

/-- What begins a string, and is no mark, begins it with others behind it. -/
theorem Begins.append_right (h : grammar.Begins front member) (hne : member ≠ .epsilon)
    (back : List Symbol) : grammar.Begins (front ++ back) member := by
  cases h with
  | terminal hderives => exact .terminal (hderives.append_right back)
  | epsilon => exact absurd rfl hne

/-- What begins a string begins it with others before it that vanish. -/
theorem Begins.append_left (h : grammar.Begins back member) (hfront : grammar.Derives front []) :
    grammar.Begins (front ++ back) member :=
  h.of_derives (hfront.append_right back)

private theorem terminal_or_nonterminal_of_isForm (h : grammar.IsForm symbols) :
    ∀ symbol ∈ symbols, symbol.isTerminal = true ∨ symbol.isNonterminal = true := by
  intro symbol hsymbol
  rcases h symbol hsymbol with hterminal | hnonterminal
  · exact .inl (Grammar.mem_terminals.mp hterminal).1
  · obtain ⟨production, hproduction, rfl⟩ := mem_nonterminals.mp hnonterminal
    exact .inr (lhs_isNonterminal hproduction)

end Grammar

namespace FirstSets

open SymbolFamily

variable {first : FirstSets} {grammar : Grammar}

/-! ## Nothing else comes in -/

/-- The members of every set begin what the symbol of the set derives. -/
def Sound (grammar : Grammar) (family : SymbolFamily) : Prop :=
  ContainedIn (fun symbol => grammar.Begins [symbol]) family

/-- Sound sets make FIRST of a string begin what the string derives. -/
theorem begins_of_mem_ofString (h : Sound grammar first.family) {symbols : List Symbol}
    (hkinds : ∀ symbol ∈ symbols, symbol.isTerminal = true ∨ symbol.isNonterminal = true)
    {member : Symbol} (hmember : member ∈ first.ofString symbols) :
    grammar.Begins symbols member := by
  induction symbols with
  | nil =>
      have hmark : member = .epsilon := SortedSet.mem_singleton.mp hmember
      subst hmark
      exact .epsilon (Grammar.Derives.refl [])
  | cons symbol rest ih =>
      have hrest := fun other hother => hkinds other (List.mem_cons_of_mem _ hother)
      cases symbol with
      | terminal atom =>
          have hfront : member = .terminal atom := SortedSet.mem_singleton.mp hmember
          subst hfront
          exact .terminal (Grammar.Derives.refl _)
      | nonterminal atom =>
          rcases mem_ofString_nonterminal.mp hmember with ⟨hown, hne⟩ | ⟨hnull, hbehind⟩
          · exact (h _ member hown).append_right hne rest
          · have hvanishes := Grammar.begins_epsilon_iff.mp (h _ .epsilon hnull)
            exact (ih hrest hbehind).append_left hvanishes
      | epsilon | endMarker => rcases hkinds _ List.mem_cons_self with hkind | hkind <;> cases hkind

/-- A production passes on what begins its body. -/
theorem begins_of_mem_source {production : Production}
    (hproduction : production ∈ grammar.productions) {family : SymbolFamily}
    (h : Sound grammar family) {member : Symbol}
    (hmember : member ∈ (inclusion production).source family) :
    grammar.Begins [production.lhs] member := by
  have hrhs : member ∈ ofString ⟨family⟩ production.rhs := hmember
  rw [← ofString_body] at hrhs
  have hbody : grammar.Derives [production.lhs] production.body := by
    simpa using Grammar.derives_body hproduction [] []
  exact .of_derives hbody (begins_of_mem_ofString h
    (fun _ hsymbol => Grammar.terminal_or_nonterminal_of_mem_body hproduction hsymbol) hrhs)

theorem sound_seed (grammar : Grammar) : Sound grammar (seed grammar).family := by
  refine containedIn_ofKeys fun symbol member hmember => ?_
  cases symbol with
  | terminal atom =>
      have hself : member = .terminal atom := SortedSet.mem_singleton.mp hmember
      subst hself
      exact .terminal (Grammar.Derives.refl _)
  | epsilon | nonterminal | endMarker => exact absurd hmember (SortedSet.not_mem_empty _)

theorem sound_ofGrammar (grammar : Grammar) : Sound grammar (ofGrammar grammar).family := by
  refine Inclusion.containedIn_saturated (sound_seed grammar) ?_
  intro demand hdemand family hfamily member hmember
  obtain ⟨production, hproduction, rfl⟩ := List.mem_map.mp hdemand
  exact begins_of_mem_source hproduction hfamily hmember

/-! ## Nothing is missing -/

/-- Closed sets hold whatever begins what a string derives. -/
theorem Closed.mem_ofString_of_begins (h : first.Closed grammar) {symbols : List Symbol}
    {member : Symbol} (hbegins : grammar.Begins symbols member) :
    member ∈ first.ofString symbols := by
  cases hbegins with
  | terminal hderives => exact h.mem_ofString_of_derives hderives (SortedSet.mem_singleton.mpr rfl)
  | epsilon hderives => exact h.mem_ofString_of_derives hderives (SortedSet.mem_singleton.mpr rfl)

theorem mem_ofString_iff_begins {symbols : List Symbol}
    (hkinds : ∀ symbol ∈ symbols, symbol.isTerminal = true ∨ symbol.isNonterminal = true)
    {member : Symbol} :
    member ∈ (ofGrammar grammar).ofString symbols ↔ grammar.Begins symbols member :=
  ⟨begins_of_mem_ofString (sound_ofGrammar grammar) hkinds,
    (ofGrammar_closed grammar).mem_ofString_of_begins⟩

theorem mem_setOf_iff_begins {symbol : Symbol}
    (h : symbol ∈ grammar.terminals ∨ symbol ∈ grammar.nonterminals) {member : Symbol} :
    member ∈ (ofGrammar grammar).setOf symbol ↔ grammar.Begins [symbol] member := by
  refine ⟨sound_ofGrammar grammar symbol member, fun hbegins => ?_⟩
  have hmember := (ofGrammar_closed grammar).mem_ofString_of_begins hbegins
  by_cases hnonterminal : symbol ∈ grammar.nonterminals
  · obtain ⟨production, hproduction, rfl⟩ := Grammar.mem_nonterminals.mp hnonterminal
    exact (mem_ofString_lhs hproduction).mp hmember
  · -- a terminal begins with itself from the start
    have hterminal := h.resolve_right hnonterminal
    have hkind := (Grammar.mem_terminals.mp hterminal).1
    rw [ofString_input (.inl hkind)] at hmember
    apply Inclusion.below_saturated (seed grammar).family
    have hseed : (seed grammar).family.get? symbol = some {symbol} := by
      rw [seed, SortedMap.get?_ofKeys, if_pos (SortedSet.mem_union.mpr (.inl hterminal)), if_pos hkind]
    rw [SymbolFamily.setOf, hseed]
    exact hmember

/-! ## The computation -/

theorem saturates (grammar : Grammar) (first : FirstSets) :
    Saturates (pass grammar) (fun first => first.family.cardinality) first
      (saturate grammar first) :=
  (Inclusion.growth_saturates first.family).map FirstSets.mk (fun _ => rfl) fun _ => rfl

theorem mem_keys_ofGrammar {symbol : Symbol} :
    symbol ∈ (ofGrammar grammar).family.keys ↔
      symbol ∈ grammar.terminals ∨ symbol ∈ grammar.nonterminals := by
  have hseed : (seed grammar).family.keys = grammar.terminals ∪ grammar.nonterminals :=
    SortedMap.keys_ofKeys _ _
  rw [← SortedSet.mem_union, ← hseed]
  apply Inclusion.mem_keys_saturated
  intro demand hdemand
  obtain ⟨production, hproduction, rfl⟩ := List.mem_map.mp hdemand
  rw [hseed, SortedSet.mem_union]
  exact .inr (Grammar.mem_nonterminals.mpr ⟨production, hproduction, rfl⟩)

theorem get?_ofGrammar {symbol : Symbol} (h : symbol ∈ grammar.nonterminals) :
    (ofGrammar grammar).get? symbol = some ((ofGrammar grammar).ofString [symbol]) := by
  obtain ⟨production, hproduction, rfl⟩ := Grammar.mem_nonterminals.mp h
  obtain ⟨set, hset⟩ := SortedMap.mem_keys.mp (mem_keys_ofGrammar.mpr (.inr h))
  have hown : (ofGrammar grammar).setOf production.lhs = set := by
    rw [setOf, SymbolFamily.setOf, hset, Option.getD_some]
  have hsame : set = (ofGrammar grammar).ofString [production.lhs] := by
    apply SortedSet.ext_mem
    intro member
    rw [mem_ofString_lhs hproduction, hown]
  rw [← hsame]
  exact hset

/-- The computation of the FIRST sets ends, with a set for each terminal and nonterminal.  FIRST of
a string holds the terminals that what it derives can begin with, and the mark of the empty string
if it derives that, and nothing else; the set of a nonterminal is FIRST of the nonterminal. -/
theorem first_exact (grammar : Grammar) :
    Saturates (pass grammar) (fun first => first.family.cardinality) (seed grammar)
        (computation grammar) ∧
      (∀ symbol, symbol ∈ (ofGrammar grammar).family.keys ↔
        symbol ∈ grammar.terminals ∨ symbol ∈ grammar.nonterminals) ∧
      (∀ symbols, grammar.IsForm symbols →
        (∀ atom, .terminal atom ∈ (ofGrammar grammar).ofString symbols ↔
          ∃ rest, grammar.Derives symbols (.terminal atom :: rest)) ∧
        (.epsilon ∈ (ofGrammar grammar).ofString symbols ↔ grammar.Derives symbols []) ∧
        ∀ member ∈ (ofGrammar grammar).ofString symbols,
          member.isTerminal = true ∨ member = .epsilon) ∧
      ∀ symbol ∈ grammar.nonterminals,
        (ofGrammar grammar).get? symbol = some ((ofGrammar grammar).ofString [symbol]) := by
  refine ⟨saturates grammar _, fun symbol => mem_keys_ofGrammar, fun symbols hform => ?_,
    fun symbol => get?_ofGrammar⟩
  have hkinds := Grammar.terminal_or_nonterminal_of_isForm hform
  refine ⟨fun atom => ?_, ?_, fun member hmember => ?_⟩
  · rw [mem_ofString_iff_begins hkinds, Grammar.begins_terminal_iff]
  · rw [mem_ofString_iff_begins hkinds, Grammar.begins_epsilon_iff]
  · cases (mem_ofString_iff_begins hkinds).mp hmember with
    | terminal => exact .inl rfl
    | epsilon => exact .inr rfl

/-- Sums in which `A` and `B` lead to each other and to nothing, and `U` never to a word. -/
def circles : Grammar where
  start := .nonterminal "S"
  productions := [
    ⟨.nonterminal "S", [.nonterminal "S", .terminal "+", .nonterminal "S"]⟩,
    ⟨.nonterminal "S", [.nonterminal "A", .nonterminal "B", .terminal "id"]⟩,
    ⟨.nonterminal "A", [.nonterminal "B", .nonterminal "A", .terminal "*"]⟩,
    ⟨.nonterminal "A", [.epsilon]⟩,
    ⟨.nonterminal "B", [.nonterminal "A"]⟩,
    ⟨.nonterminal "U", [.nonterminal "B", .terminal "-", .nonterminal "U"]⟩]
  wellFormed := Grammar.wellFormed_of_fault?_eq_none (by decide)

/-- In `circles` the string `A B` can begin with `*` but not with `id`, it can vanish, and `U` can
begin with `-` although it derives no word. -/
theorem first_exact_circles :
    circles.IsForm [.nonterminal "A", .nonterminal "B"] ∧
      (∃ rest, circles.Derives [.nonterminal "A", .nonterminal "B"] (.terminal "*" :: rest)) ∧
      (¬ ∃ rest, circles.Derives [.nonterminal "A", .nonterminal "B"] (.terminal "id" :: rest)) ∧
      circles.Derives [.nonterminal "A", .nonterminal "B"] [] ∧
      .nonterminal "U" ∈ circles.nonterminals ∧
      (ofGrammar circles).get? (.nonterminal "U") =
        some ((ofGrammar circles).ofString [.nonterminal "U"]) ∧
      (ofGrammar circles).ofString [.nonterminal "U"] = {.terminal "*"} ∪ {.terminal "-"} := by
  obtain ⟨_, _, hstrings, hsets⟩ := first_exact circles
  have hform : circles.IsForm [.nonterminal "A", .nonterminal "B"] := by decide
  obtain ⟨hterminals, hmark, _⟩ := hstrings _ hform
  have hpair : (ofGrammar circles).ofString [.nonterminal "A", .nonterminal "B"] =
      {.epsilon} ∪ {.terminal "*"} := by decide +kernel
  have hU : Symbol.nonterminal "U" ∈ circles.nonterminals := by decide
  rw [hpair] at hterminals hmark
  refine ⟨hform, (hterminals "*").mp (by decide), ?_, hmark.mp (by decide), hU, hsets _ hU,
    by decide +kernel⟩
  rw [← hterminals "id"]
  decide

end FirstSets

end TableParsing
