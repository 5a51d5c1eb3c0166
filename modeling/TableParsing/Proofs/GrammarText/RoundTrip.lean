import TableParsing.Proofs.Combinators
import TableParsing.Proofs.Derivation
import TableParsing.Proofs.GrammarText.TextLines

/-!
# Reading what was written

A grammar is written as the number of its left-hand sides and a line for each of
them.  If its symbols can be spelled by one character each and it starts with `S`
(`Grammar.IsPlain`), then what is written is read again, with the productions in
groups (`parse_write_of_isPlain`); so the grammar itself comes back if they stood in
groups before.  No other grammar comes back, because the reader makes plain grammars
only (`isPlain_of_parse`).

There are at most as many lines as letters (`length_heads_le`), so that their number
is one that can be read.
-/

namespace TableParsing

/-! ## Plain grammars -/

/-- A grammar that a text can spell. -/
structure Grammar.IsPlain (grammar : Grammar) : Prop where
  start : grammar.start = .nonterminal "S"
  nonterminals : ∀ symbol ∈ grammar.nonterminals, ∃ letter : Char,
    letter.isUpper = true ∧ symbol.atom = String.singleton letter
  terminals : ∀ symbol ∈ grammar.terminals, ∃ character,
    Text.isWhiteSpace character = false ∧ symbol.atom = String.singleton character

namespace Grammar

variable {grammar : Grammar}

/-- The symbols of a plain grammar's right-hand sides have one character each, as terminals are not
spelled like symbols of another kind. -/
theorem IsPlain.symbol (h : grammar.IsPlain) {production : Production}
    (hproduction : production ∈ grammar.productions) {symbol : Symbol}
    (hsymbol : symbol ∈ production.rhs) : symbol.IsPlain := by
  have hvalid := grammar.wellFormed.valid production hproduction
  cases symbol with
  | epsilon => exact ⟨'e', by decide, by decide⟩
  | endMarker => exact absurd hsymbol hvalid.endMarker_not_mem
  | nonterminal atom =>
      have hdefined : .nonterminal atom ∈ grammar.nonterminals := mem_nonterminals.mpr
        (grammar.wellFormed.nonterminals_defined production hproduction _ hsymbol rfl)
      obtain ⟨letter, hupper, hatom⟩ := h.nonterminals _ hdefined
      refine ⟨letter, GrammarText.isSymbolChar_of_isUpper hupper, ?_⟩
      rw [Symbol.ofChar_of_isUpper hupper, ← hatom]
      rfl
  | terminal atom =>
      have hterminal : .terminal atom ∈ grammar.terminals := SortedSet.mem_ofList.mpr
        (List.mem_filter.mpr ⟨List.mem_flatMap.mpr ⟨production, hproduction, hsymbol⟩, rfl⟩)
      obtain ⟨character, hvisible, hatom⟩ := h.terminals _ hterminal
      have hspelling : atom = String.singleton character := hatom
      have hkind : (Symbol.classify atom).isTerminal = true := by
        simpa [Production.isReserved, Symbol.isTerminal, Symbol.atom] using
          hvalid.not_isReserved _ hsymbol
      have hrank : (Symbol.classify atom).rank = (Symbol.terminal atom).rank := by
        cases hclass : Symbol.classify atom with
        | terminal other => rfl
        | epsilon | nonterminal | endMarker =>
            rw [hclass] at hkind
            cases hkind
      refine ⟨character, by simp [GrammarText.isSymbolChar, hvisible], ?_⟩
      rw [Symbol.ofChar, ← hspelling]
      exact Symbol.eq_of_rank_of_atom hrank (Symbol.atom_classify atom)

theorem isPlain_iff : grammar.IsPlain ↔
    grammar.start = defaultStart ∧ ∀ production ∈ grammar.productions, production.IsPlain := by
  constructor
  · intro h
    refine ⟨h.start, fun production hproduction => ⟨?_, fun _ => h.symbol hproduction⟩⟩
    obtain ⟨letter, hupper, hatom⟩ :=
      h.nonterminals _ (mem_nonterminals.mpr ⟨production, hproduction, rfl⟩)
    refine ⟨letter, hupper, ?_⟩
    have hkind := lhs_isNonterminal hproduction
    rw [Symbol.ofChar_of_isUpper hupper, ← hatom]
    cases hlhs : production.lhs with
    | nonterminal atom => rfl
    | epsilon | terminal | endMarker =>
        rw [hlhs] at hkind
        cases hkind
  · rintro ⟨hstart, hplain⟩
    refine ⟨hstart, fun symbol hsymbol => ?_, fun symbol hsymbol => ?_⟩
    · obtain ⟨production, hproduction, rfl⟩ := mem_nonterminals.mp hsymbol
      obtain ⟨letter, hupper, hlhs⟩ := (hplain production hproduction).lhs
      exact ⟨letter, hupper, by rw [hlhs, Symbol.atom_ofChar]⟩
    · obtain ⟨hmem, _⟩ := List.mem_filter.mp (SortedSet.mem_ofList.mp hsymbol)
      obtain ⟨production, hproduction, hrhs⟩ := List.mem_flatMap.mp hmem
      obtain ⟨character, hcharacter, rfl⟩ := (hplain production hproduction).rhs symbol hrhs
      exact ⟨character, by simpa [GrammarText.isSymbolChar] using hcharacter,
        Symbol.atom_ofChar character⟩

/-- The grammar with its productions in groups. -/
def regrouped (grammar : Grammar) : Grammar where
  start := grammar.start
  productions := GrammarText.regroup grammar.productions
  wellFormed := grammar.wellFormed.of_mem_iff fun _ => GrammarText.mem_regroup

theorem regrouped_eq_self_iff :
    grammar.regrouped = grammar ↔ GrammarText.Contiguous grammar.productions := by
  rw [← GrammarText.regroup_eq_self_iff]
  constructor
  · exact congrArg productions
  · intro h
    obtain ⟨start, productions, hwellFormed⟩ := grammar
    simpa [regrouped] using h

end Grammar

namespace GrammarText

/-! ## Grammars that are read -/

/-- A grammar that was read has the default start symbol and the productions of the lines behind the
count. -/
private theorem exists_readLines_of_parse {library : Combinators} {text : String} {grammar : Grammar}
    (h : parse library text = .ok grammar) :
    ∃ count rest, readCount 1 (Text.linesOfText text) = ⟨.ok count, rest⟩ ∧
      (readLines library count.line count.value 0 [] rest).outcome = .ok grammar.productions ∧
      grammar.start = Grammar.defaultStart := by
  unfold parse readGrammar readListing at h
  split at h
  · cases h
  · rename_i count rest hcount
    refine ⟨count, rest, hcount, ?_⟩
    simp only at h
    cases hread : (readLines library count.line count.value 0 [] rest).outcome with
    | error error =>
        rw [hread] at h
        cases h
    | ok productions =>
        rw [hread] at h
        simp only [Except.map, Except.bind, Listing.grammar] at h
        cases hcheck : Grammar.checkDefault productions with
        | error error =>
            rw [hcheck] at h
            cases h
        | ok checked =>
            rw [hcheck] at h
            cases h
            obtain ⟨hstart, rfl⟩ := Grammar.check_eq_ok_iff.mp hcheck
            exact ⟨rfl, hstart⟩

theorem isPlain_of_parse {library : Combinators} (hlibrary : library.Documented) {text : String}
    {grammar : Grammar} (h : parse library text = .ok grammar) : grammar.IsPlain := by
  obtain ⟨count, rest, _, hread, hstart⟩ := exists_readLines_of_parse h
  exact Grammar.isPlain_iff.mpr ⟨hstart, isPlain_of_readLines hlibrary (by simp) hread⟩

/-! ## Grammars that are written -/

/-- The nonterminals that an uppercase letter stands for. -/
def letters : List Symbol :=
  (List.range 26).map fun offset => .ofChar (Char.ofNat (65 + offset))

/-- There are no more left-hand sides than letters. -/
private theorem length_heads_le {productions : List Production}
    (h : ∀ production ∈ productions, production.IsPlain) : (heads productions).length ≤ 26 := by
  have hsubset : heads productions ⊆ letters := by
    intro lhs hlhs
    obtain ⟨production, hproduction, rfl⟩ := mem_heads.mp hlhs
    obtain ⟨letter, hupper, hletter⟩ := (h production hproduction).lhs
    rw [isUpper_iff] at hupper
    have hoffset : 65 + (letter.toNat - 65) = letter.toNat := by omega
    refine List.mem_map.mpr ⟨letter.toNat - 65, List.mem_range.mpr (by omega), ?_⟩
    rw [hoffset, Char.ofNat_toNat, hletter]
  calc (heads productions).length
      ≤ letters.length := (heads_nodup _).length_le_of_subset hsubset
    _ = 26 := rfl

theorem linesOfText_write {grammar : Grammar}
    (hplain : ∀ production ∈ grammar.productions, production.IsPlain) :
    Text.linesOfText (write grammar) =
      .text (toString (heads grammar.productions).length ++ "\n") ::
        (heads grammar.productions).map fun lhs => .text (lineOf grammar.productions lhs) := by
  rw [write]
  generalize (heads grammar.productions).length = count
  have hends : ∀ content ∈ (toString count ++ "\n") ::
      (heads grammar.productions).map (lineOf grammar.productions),
      ∃ body, '\n' ∉ body ∧ content.toList = body ++ ['\n'] := by
    intro content hcontent
    rcases List.mem_cons.mp hcontent with rfl | hline
    · refine ⟨(toString count).toList, fun hnewline => ?_, String.toList_append⟩
      exact absurd (isDigit_of_mem_toString hnewline) (by decide)
    · obtain ⟨lhs, hlhs, rfl⟩ := List.mem_map.mp hline
      exact exists_toList_lineOf grammar.wellFormed.valid hplain hlhs
  rw [← String.join_cons, Text.linesOfText_join hends, List.map_cons, List.map_map]
  rfl

/-- The text of a plain grammar is read as the grammar, regrouped. -/
theorem parse_write_of_isPlain {library : Combinators} (hlibrary : library.Documented)
    {grammar : Grammar} (h : grammar.IsPlain) :
    parse library (write grammar) = .ok grammar.regrouped := by
  obtain ⟨hstart, hplain⟩ := Grammar.isPlain_iff.mp h
  have hlimit : (heads grammar.productions).length < countLimit :=
    lt_of_le_of_lt (length_heads_le hplain) (by decide)
  have hall : readLines library 1 (heads grammar.productions).length 0 []
      ((heads grammar.productions).map fun lhs => .text (lineOf grammar.productions lhs)) =
        ⟨.ok grammar.regrouped.productions, []⟩ := by
    have hread := readLines_map (heads grammar.productions) (fun lhs hlhs number =>
      productionsOfLine_lineOf grammar.wellFormed.valid hplain hlibrary hlhs number) 1 0 []
    rwa [Nat.zero_add] at hread
  have hcheck : Grammar.checkDefault grammar.regrouped.productions = .ok grammar.regrouped :=
    Grammar.check_eq_ok_iff.mpr ⟨hstart, rfl⟩
  simp only [parse, readGrammar, readListing, linesOfText_write hplain, readCount_toString hlimit,
    hall]
  show (Grammar.checkDefault grammar.regrouped.productions).mapError _ = _
  rw [hcheck]
  rfl

theorem write_regrouped (grammar : Grammar) : write grammar.regrouped = write grammar := by
  have hlines : lineOf (regroup grammar.productions) = lineOf grammar.productions := by
    funext lhs
    unfold lineOf
    have hgroup := group_regroup lhs grammar.productions
    unfold group at hgroup
    rw [hgroup]
  show toString (heads (regroup grammar.productions)).length ++ "\n" ++
    String.join ((heads (regroup grammar.productions)).map (lineOf (regroup grammar.productions))) = _
  rw [heads_regroup, hlines]
  rfl

/-- Exactly the plain grammars whose productions stand in groups come back from their texts.  Other
plain grammars come back regrouped, with a text that does not change any more, and all grammars that
are read are plain. -/
theorem parse_write_exact {library : Combinators} (h : library.Documented) (grammar : Grammar) :
    (parse library (write grammar) = .ok grammar ↔
        grammar.IsPlain ∧ Contiguous grammar.productions) ∧
      (grammar.IsPlain → parse library (write grammar) = .ok grammar.regrouped ∧
        write grammar.regrouped = write grammar) ∧
      ∀ text, parse library text = .ok grammar → grammar.IsPlain := by
  refine ⟨⟨fun hread => ?_, ?_⟩,
    fun hplain => ⟨parse_write_of_isPlain h hplain, write_regrouped grammar⟩,
    fun text => isPlain_of_parse h⟩
  · -- the grammar was read, so it is plain and was read as the regrouped one
    have hplain := isPlain_of_parse h hread
    rw [parse_write_of_isPlain h hplain, Except.ok.injEq] at hread
    exact ⟨hplain, Grammar.regrouped_eq_self_iff.mp hread⟩
  · rintro ⟨hplain, hgroups⟩
    rw [parse_write_of_isPlain h hplain, Grammar.regrouped_eq_self_iff.mpr hgroups]

/-- The productions of `S` stand on both sides of another one. -/
def scattered : Grammar where
  start := .nonterminal "S"
  productions := [⟨.nonterminal "S", [.terminal "a", .nonterminal "A"]⟩,
    ⟨.nonterminal "A", [.terminal "b"]⟩, ⟨.nonterminal "S", [.epsilon]⟩]
  wellFormed := Grammar.wellFormed_of_fault?_eq_none rfl

/-- A text with two lines for `S` is read, but the grammar that it gives is written with one. -/
theorem parse_write_exact_scattered :
    parse .standard "3\nS -> aA\nA -> b\nS -> e\n" = .ok scattered ∧
      parse .standard (write scattered) ≠ .ok scattered ∧
      parse .standard (write scattered) = .ok scattered.regrouped ∧
      write scattered.regrouped = write scattered := by
  obtain ⟨hexact, hregrouped, hread⟩ :=
    parse_write_exact Combinators.standard_documented scattered
  have htext : parse .standard "3\nS -> aA\nA -> b\nS -> e\n" = .ok scattered := by decide +kernel
  have hscattered : ¬ Contiguous scattered.productions := by decide +kernel
  exact ⟨htext, fun h => hscattered (hexact.mp h).2, hregrouped (hread _ htext)⟩

end GrammarText

end TableParsing
