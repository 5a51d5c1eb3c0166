import TableParsing.Proofs.Validity

/-!
# Which fault of a grammar is reported

A start symbol and a list of productions can have many faults, and `Grammar.check`
reports one of them.  `Grammar.FirstFault` says which one without the checks: the
conditions have an order, and the reported fault is that of the first condition
that is violated.  The kind of the start symbol and the empty list come first.
Then come the productions in the order of the list, each with the conditions of
`Production.FirstFault`, then the rule of the start symbol, and last the
nonterminals of the right-hand sides in reading order.

A search from left to right stops at the first member that it is looking for, and
all members before that one satisfy the condition; so each relation follows the
branches of the check that it describes (`Production.fault?_eq_some_iff`,
`Grammar.fault?_eq_some_iff`).
-/

namespace TableParsing

/-! ## Productions -/

namespace Production

/-- The fault of the first condition that a production violates. -/
inductive FirstFault (production : Production) : GrammarError → Prop
  | lhs (h : production.lhs.isNonterminal = false) :
      FirstFault production (.invalidLhs production.lhs)
  | empty (hlhs : production.lhs.isNonterminal = true) (h : production.rhs = []) :
      FirstFault production (.emptyRhs production.lhs)
  | endMarker (hlhs : production.lhs.isNonterminal = true) (h : .endMarker ∈ production.rhs) :
      FirstFault production (.endMarkerInRhs production.lhs)
  /-- No earlier terminal has a spelling of another kind. -/
  | reserved {before after : List Symbol} {atom : String}
      (hlhs : production.lhs.isNonterminal = true) (hmarker : .endMarker ∉ production.rhs)
      (hrhs : production.rhs = before ++ .terminal atom :: after)
      (hbefore : ∀ other, .terminal other ∈ before → (Symbol.classify other).isTerminal = true)
      (h : (Symbol.classify atom).isTerminal = false) :
      FirstFault production (.reservedTerminal (.terminal atom))
  | epsilon (hlhs : production.lhs.isNonterminal = true) (hmarker : .endMarker ∉ production.rhs)
      (hterminals : ∀ atom, .terminal atom ∈ production.rhs →
        (Symbol.classify atom).isTerminal = true)
      (hmem : .epsilon ∈ production.rhs) (h : production.rhs ≠ [.epsilon]) :
      FirstFault production (.misplacedEpsilon production.lhs)

private theorem isReserved_terminal (atom : String) :
    isReserved (.terminal atom) = !(Symbol.classify atom).isTerminal := rfl

theorem isReserved_iff {symbol : Symbol} : isReserved symbol = true ↔
    ∃ atom, symbol = .terminal atom ∧ (Symbol.classify atom).isTerminal = false := by
  cases symbol <;> simp [isReserved, Symbol.isTerminal, Symbol.atom]

/-- Among some symbols no terminal has a spelling of another kind. -/
theorem forall_not_isReserved_iff {symbols : List Symbol} :
    (∀ symbol ∈ symbols, ¬ isReserved symbol = true) ↔
      ∀ atom, .terminal atom ∈ symbols → (Symbol.classify atom).isTerminal = true := by
  constructor
  · intro h atom hatom
    simpa [isReserved_terminal] using h _ hatom
  · intro h symbol hsymbol hreserved
    obtain ⟨atom, rfl, hkind⟩ := isReserved_iff.mp hreserved
    rw [h atom hsymbol] at hkind
    cases hkind

private theorem find?_isReserved_eq_some_iff {symbols : List Symbol} {symbol : Symbol} :
    symbols.find? isReserved = some symbol ↔
      ∃ atom, symbol = .terminal atom ∧ (Symbol.classify atom).isTerminal = false ∧
        ∃ before after, symbols = before ++ symbol :: after ∧
          ∀ other, .terminal other ∈ before → (Symbol.classify other).isTerminal = true := by
  rw [List.find?_eq_some_iff_append, isReserved_iff]
  simp only [← forall_not_isReserved_iff, Bool.not_eq_true', Bool.not_eq_true, ← and_assoc,
    exists_and_right]

private theorem find?_isReserved_eq_none_iff {symbols : List Symbol} :
    symbols.find? isReserved = none ↔
      ∀ atom, .terminal atom ∈ symbols → (Symbol.classify atom).isTerminal = true := by
  rw [List.find?_eq_none, forall_not_isReserved_iff]

private theorem one_lt_length_iff {symbols : List Symbol} (h : .epsilon ∈ symbols) :
    1 < symbols.length ↔ symbols ≠ [.epsilon] := by
  match symbols with
  | [] => cases h
  | [symbol] =>
      rw [List.mem_singleton] at h
      simp [← h]
  | first :: second :: rest => simp

theorem firstFault_of_fault? {production : Production} {error : GrammarError}
    (h : production.fault? = some error) : production.FirstFault error := by
  unfold fault? at h
  by_cases hlhs : production.lhs.isNonterminal = true
  case neg =>
    simp only [hlhs, Bool.not_false, if_true, Option.some.injEq] at h
    exact h ▸ .lhs (by simpa using hlhs)
  by_cases hempty : production.rhs = []
  case pos =>
    simp only [hlhs, hempty, Bool.not_true, Bool.false_eq_true, if_false, List.isEmpty_nil, if_true,
      Option.some.injEq] at h
    exact h ▸ .empty hlhs hempty
  by_cases hmarker : .endMarker ∈ production.rhs
  case pos =>
    simp only [hlhs, hempty, hmarker, Bool.not_true, Bool.false_eq_true, if_false,
      List.isEmpty_iff, List.contains_eq_mem, decide_true, if_true, Option.some.injEq] at h
    exact h ▸ .endMarker hlhs hmarker
  simp only [hlhs, hempty, hmarker, Bool.not_true, Bool.false_eq_true, if_false, List.isEmpty_iff,
    List.contains_eq_mem, decide_false] at h
  cases hfound : production.rhs.find? isReserved with
  | some terminal =>
      rw [hfound] at h
      cases h
      obtain ⟨atom, rfl, hkind, before, after, hrhs, hbefore⟩ :=
        find?_isReserved_eq_some_iff.mp hfound
      exact .reserved hlhs hmarker hrhs hbefore hkind
  | none =>
      simp only [hfound, Bool.and_eq_true, decide_eq_true_eq, Option.ite_none_right_eq_some,
        Option.some.injEq] at h
      obtain ⟨⟨hlong, hmem⟩, rfl⟩ := h
      exact .epsilon hlhs hmarker (find?_isReserved_eq_none_iff.mp hfound) hmem
        ((one_lt_length_iff hmem).mp hlong)

theorem FirstFault.fault?_eq {production : Production} {error : GrammarError}
    (h : production.FirstFault error) : production.fault? = some error := by
  unfold fault?
  cases h with
  | lhs h => simp [h]
  | empty hlhs h => simp [hlhs, h]
  | endMarker hlhs h => simp [hlhs, h, List.ne_nil_of_mem h]
  | reserved hlhs hmarker hrhs hbefore h =>
      have hfound := find?_isReserved_eq_some_iff.mpr ⟨_, rfl, h, _, _, hrhs, hbefore⟩
      have hsome : production.rhs ≠ [] := by simp [hrhs]
      simp [hlhs, hmarker, hfound, hsome]
  | epsilon hlhs hmarker hterminals hmem h =>
      have hnone := find?_isReserved_eq_none_iff.mpr hterminals
      simp [hlhs, hmarker, hnone, hmem, List.ne_nil_of_mem hmem, (one_lt_length_iff hmem).mpr h]

theorem fault?_eq_some_iff {production : Production} {error : GrammarError} :
    production.fault? = some error ↔ production.FirstFault error :=
  ⟨firstFault_of_fault?, FirstFault.fault?_eq⟩

end Production

/-! ## Grammars -/

namespace Grammar

/-- The fault of the first condition that a start symbol and a list of productions violate. -/
inductive FirstFault (start : Symbol) (productions : List Production) : GrammarError → Prop
  | start (h : start.isNonterminal = false) : FirstFault start productions (.invalidStart start)
  | empty (hstart : start.isNonterminal = true) (h : productions = []) :
      FirstFault start productions .noProductions
  /-- All earlier productions are valid. -/
  | production {before after : List Production} {production : Production} {error : GrammarError}
      (hstart : start.isNonterminal = true) (hsplit : productions = before ++ production :: after)
      (hbefore : ∀ other ∈ before, other.Valid) (h : production.FirstFault error) :
      FirstFault start productions error
  | missing (hstart : start.isNonterminal = true) (hsome : productions ≠ [])
      (hvalid : ∀ production ∈ productions, production.Valid)
      (h : ∀ production ∈ productions, production.lhs ≠ start) :
      FirstFault start productions (.missingStartRule start)
  /-- All nonterminals that are read before have productions. -/
  | undefined {before after : List Symbol} {symbol : Symbol}
      (hvalid : ∀ production ∈ productions, production.Valid)
      (hstart : ∃ production ∈ productions, production.lhs = start)
      (hsplit : productions.flatMap (·.rhs) = before ++ symbol :: after)
      (hbefore : ∀ other ∈ before, other.isNonterminal = true →
        ∃ production ∈ productions, production.lhs = other)
      (hkind : symbol.isNonterminal = true)
      (h : ∀ production ∈ productions, production.lhs ≠ symbol) :
      FirstFault start productions (.undefinedNonterminal symbol)

variable {start : Symbol} {productions : List Production} {error : GrammarError}

theorem isDefinedIn_eq_false_iff {symbol : Symbol} : isDefinedIn productions symbol = false ↔
    ∀ production ∈ productions, production.lhs ≠ symbol := by
  rw [Bool.eq_false_iff, ne_eq, isDefinedIn_iff]
  simp

private theorem findSome?_fault?_eq_some_iff : productions.findSome? Production.fault? = some error ↔
    ∃ before production after, productions = before ++ production :: after ∧
      (∀ other ∈ before, other.Valid) ∧ production.FirstFault error := by
  simp only [List.findSome?_eq_some_iff, Production.fault?_eq_some_iff,
    Production.fault?_eq_none_iff, and_comm]

private theorem findSome?_fault?_eq_none_iff : productions.findSome? Production.fault? = none ↔
    ∀ production ∈ productions, production.Valid := by
  simp only [List.findSome?_eq_none_iff, Production.fault?_eq_none_iff]

private theorem find?_undefined_eq_some_iff {symbols : List Symbol} {symbol : Symbol} :
    symbols.find? (fun other => other.isNonterminal && !isDefinedIn productions other) = some symbol ↔
      symbol.isNonterminal = true ∧ (∀ production ∈ productions, production.lhs ≠ symbol) ∧
        ∃ before after, symbols = before ++ symbol :: after ∧
          ∀ other ∈ before, other.isNonterminal = true →
            ∃ production ∈ productions, production.lhs = other := by
  simp only [List.find?_eq_some_iff_append, ← isDefinedIn_eq_false_iff, ← isDefinedIn_iff]
  grind

theorem firstFault_of_fault? (h : fault? start productions = some error) :
    FirstFault start productions error := by
  unfold fault? at h
  by_cases hstart : start.isNonterminal = true
  case neg =>
    simp only [hstart, Bool.not_false, if_true, Option.some.injEq] at h
    exact h ▸ .start (by simpa using hstart)
  by_cases hempty : productions = []
  case pos =>
    simp only [hstart, hempty, Bool.not_true, Bool.false_eq_true, if_false, List.isEmpty_nil, if_true,
      Option.some.injEq] at h
    exact h ▸ .empty hstart hempty
  simp only [hstart, hempty, Bool.not_true, Bool.false_eq_true, if_false, List.isEmpty_iff] at h
  cases hfaulty : productions.findSome? Production.fault? with
  | some other =>
      rw [hfaulty] at h
      cases h
      obtain ⟨before, production, after, hsplit, hbefore, hfault⟩ :=
        findSome?_fault?_eq_some_iff.mp hfaulty
      exact .production hstart hsplit hbefore hfault
  | none =>
      have hvalid := findSome?_fault?_eq_none_iff.mp hfaulty
      rw [hfaulty] at h
      by_cases hdefined : isDefinedIn productions start = true
      · simp only [hdefined, Bool.not_true, Bool.false_eq_true, if_false,
          Option.map_eq_some_iff] at h
        obtain ⟨symbol, hfound, rfl⟩ := h
        obtain ⟨hkind, hnone, before, after, hsplit, hbefore⟩ :=
          find?_undefined_eq_some_iff.mp hfound
        exact .undefined hvalid (isDefinedIn_iff.mp hdefined) hsplit hbefore hkind hnone
      · simp only [hdefined, Bool.not_false, if_true, Option.some.injEq] at h
        rw [← h]
        exact .missing hstart hempty hvalid (isDefinedIn_eq_false_iff.mp (by simpa using hdefined))

theorem FirstFault.fault?_eq (h : FirstFault start productions error) :
    fault? start productions = some error := by
  unfold fault?
  cases h with
  | start h => simp [h]
  | empty hstart h => simp [hstart, h]
  | production hstart hsplit hbefore h =>
      have hfaulty := findSome?_fault?_eq_some_iff.mpr ⟨_, _, _, hsplit, hbefore, h⟩
      have hsome : productions ≠ [] := by simp [hsplit]
      simp only [hstart, hsome, hfaulty, Bool.not_true, Bool.false_eq_true, if_false,
        List.isEmpty_iff]
  | missing hstart hsome hvalid h =>
      have hnone := findSome?_fault?_eq_none_iff.mpr hvalid
      have hundefined := isDefinedIn_eq_false_iff.mpr h
      simp [hstart, hsome, hnone, hundefined]
  | undefined hvalid hstart hsplit hbefore hkind h =>
      obtain ⟨production, hproduction, hlhs⟩ := hstart
      have hstart : start.isNonterminal = true := hlhs ▸ (hvalid _ hproduction).lhs_isNonterminal
      have hnone := findSome?_fault?_eq_none_iff.mpr hvalid
      have hdefined := isDefinedIn_iff.mpr ⟨production, hproduction, hlhs⟩
      have hfound := find?_undefined_eq_some_iff.mpr ⟨hkind, h, _, _, hsplit, hbefore⟩
      simp only [hstart, List.ne_nil_of_mem hproduction, hnone, hdefined, hfound, Bool.not_true,
        Bool.false_eq_true, if_false, List.isEmpty_iff, Option.map_some]

theorem fault?_eq_some_iff : fault? start productions = some error ↔
    FirstFault start productions error :=
  ⟨firstFault_of_fault?, FirstFault.fault?_eq⟩

theorem check_eq_error_iff : check start productions = .error error ↔
    FirstFault start productions error := by
  rw [← fault?_eq_some_iff]
  unfold check
  split
  · rename_i other hother
    simp [hother]
  · rename_i hnone
    simp [hnone]

end Grammar

end TableParsing
