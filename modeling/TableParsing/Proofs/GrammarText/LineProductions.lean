import TableParsing.Proofs.Combinators
import TableParsing.Proofs.GrammarText.LineForm
import TableParsing.Proofs.GrammarText.TextLines

/-!
# What a production line is read as

A line is read in two steps: its form is found, and then each alternative is made a
production.  The first step decides whether the line is malformed, and where.  The
column of the place stands in the message, and no other one does
(`reportsColumn_trimEnd`, `ReportsColumn.unique`).  The second step can fail only for
an alternative that mentions the empty string or the end of the input where it must
not, as its symbols are those that single characters stand for
(`productionOf_eq_ite`).  Together they tell the outcome for every line
(`productionsOfLine_exact`).
-/

namespace TableParsing.GrammarText

variable {parsed : ProductionLine} {characters line : List Char} {lhs : Char}

/-! ## Alternatives -/

theorem epsilon_mem_iff : Symbol.epsilon ∈ characters.map Symbol.ofChar ↔ 'e' ∈ characters := by
  show Symbol.ofChar 'e' ∈ _ ↔ _
  exact List.mem_map_of_injective Symbol.ofChar_injective

theorem endMarker_mem_iff : Symbol.endMarker ∈ characters.map Symbol.ofChar ↔ '$' ∈ characters := by
  show Symbol.ofChar '$' ∈ _ ↔ _
  exact List.mem_map_of_injective Symbol.ofChar_injective

private theorem not_isReserved_of_mem {symbol : Symbol} (h : symbol ∈ characters.map Symbol.ofChar) :
    Production.isReserved symbol = false := by
  obtain ⟨character, _, rfl⟩ := List.mem_map.mp h
  rw [Production.isReserved, Symbol.atom_ofChar]
  exact Bool.and_not_self _

/-- The empty alternative, or one without the characters that stand for the empty string and for the
end of the input. -/
def IsProper (alternative : String) : Prop :=
  alternative = "e" ∨ 'e' ∉ alternative.toList ∧ '$' ∉ alternative.toList

instance (alternative : String) : Decidable (IsProper alternative) :=
  inferInstanceAs (Decidable (_ ∨ _))

/-- What is wrong with an alternative that is not proper. -/
def alternativeError (lhs : Char) (alternative : String) : GrammarError :=
  if '$' ∈ alternative.toList then .endMarkerInRhs (.ofChar lhs) else .misplacedEpsilon (.ofChar lhs)

section Alternative

variable {alternative : String} (hlhs : lhs.isUpper = true)
  (halternative : IsAlternative alternative.toList)
include hlhs halternative

theorem productionOf_of_isProper (h : IsProper alternative) :
    productionOf lhs alternative = .ok ⟨.ofChar lhs, alternative.toList.map .ofChar⟩ := by
  rw [productionOf_eq]
  refine Production.make_eq_ok_iff.mpr ⟨rfl, ?_⟩
  constructor
  case lhs_isNonterminal => simp only [Symbol.ofChar_of_isUpper hlhs, Symbol.isNonterminal]
  case rhs_ne_nil => simpa using halternative.ne_nil
  case endMarker_not_mem =>
    rw [endMarker_mem_iff]
    rcases h with rfl | ⟨_, hmarker⟩
    · decide
    · exact hmarker
  case not_isReserved => exact fun symbol => not_isReserved_of_mem
  case epsilon_alone =>
    rw [epsilon_mem_iff]
    rcases h with rfl | ⟨hmark, _⟩
    · exact fun _ => rfl
    · exact fun hmem => absurd hmem hmark

theorem productionOf_of_not_isProper (h : ¬ IsProper alternative) :
    productionOf lhs alternative = .error (alternativeError lhs alternative) := by
  have hkind : (Symbol.ofChar lhs).isNonterminal = true := by
    rw [Symbol.ofChar_of_isUpper hlhs]
    rfl
  have hreserved : (alternative.toList.map Symbol.ofChar).find? Production.isReserved = none :=
    List.find?_eq_none.mpr fun symbol hsymbol => by simp [not_isReserved_of_mem hsymbol]
  have hfault : Production.fault? ⟨.ofChar lhs, alternative.toList.map .ofChar⟩ =
      some (alternativeError lhs alternative) := by
    simp only [Production.fault?, hkind, hreserved, Bool.not_true, Bool.false_eq_true, if_false,
      List.isEmpty_iff, List.map_eq_nil_iff, halternative.ne_nil, List.contains_iff_mem,
      endMarker_mem_iff, epsilon_mem_iff, List.length_map, Bool.and_eq_true, decide_eq_true_eq,
      alternativeError]
    by_cases hmarker : '$' ∈ alternative.toList
    · rw [if_pos hmarker, if_pos hmarker]
    · have hmark : 'e' ∈ alternative.toList := by
        by_contra hmark
        exact h (.inr ⟨hmark, hmarker⟩)
      have hlong : 1 < alternative.toList.length := by
        by_contra hshort
        have hpos : 0 < alternative.toList.length := List.length_pos_of_mem hmark
        have hone : alternative.toList.length = 1 := by omega
        obtain ⟨only, honly⟩ := List.length_eq_one_iff.mp hone
        rw [honly, List.mem_singleton] at hmark
        subst hmark
        exact h (.inl (String.toList_inj.mp honly))
      rw [if_neg hmarker, if_neg hmarker, if_pos ⟨hlong, hmark⟩]
  rw [productionOf_eq, Production.make, hfault]

theorem productionOf_eq_ite :
    productionOf lhs alternative =
      if IsProper alternative then .ok ⟨.ofChar lhs, alternative.toList.map .ofChar⟩
      else .error (alternativeError lhs alternative) := by
  split
  · rename_i h
    exact productionOf_of_isProper hlhs halternative h
  · rename_i h
    exact productionOf_of_not_isProper hlhs halternative h

end Alternative

/-! ## Alternatives of a line -/

section Spelled

variable (h : Spells parsed line)
include h

theorem productionOf_of_spells {alternative : String} (hmem : alternative ∈ parsed.alternatives) :
    productionOf parsed.lhs alternative =
      if IsProper alternative then .ok ⟨.ofChar parsed.lhs, alternative.toList.map .ofChar⟩
      else .error (alternativeError parsed.lhs alternative) := by
  obtain ⟨hlhs, halternatives⟩ := isAlternative_of_readLine (readLine_eq_ok_iff.mpr h)
  exact productionOf_eq_ite hlhs (halternatives alternative hmem)

theorem productions_of_isProper (hproper : ∀ alternative ∈ parsed.alternatives, IsProper alternative) :
    parsed.productions = .ok (parsed.alternatives.map fun alternative =>
      ⟨.ofChar parsed.lhs, alternative.toList.map .ofChar⟩) := by
  rw [ProductionLine.productions, mapM_eq_ok_iff, List.forall₂_map_right_iff, List.forall₂_same]
  intro alternative hmem
  rw [productionOf_of_spells h hmem, if_pos (hproper alternative hmem)]

theorem productions_eq_error_iff {error : GrammarError} :
    parsed.productions = .error error ↔
      ∃ before alternative after, parsed.alternatives = before ++ alternative :: after ∧
        (∀ other ∈ before, IsProper other) ∧ ¬ IsProper alternative ∧
          error = alternativeError parsed.lhs alternative := by
  rw [ProductionLine.productions, mapM_eq_error_iff]
  refine exists_congr fun before => exists_congr fun alternative => exists_congr fun after =>
    and_congr_right fun hsplit => ?_
  have hmem : ∀ other ∈ before, other ∈ parsed.alternatives := fun other hother =>
    hsplit ▸ List.mem_append_left _ hother
  have hown : alternative ∈ parsed.alternatives :=
    hsplit ▸ List.mem_append_right _ List.mem_cons_self
  refine and_congr (forall₂_congr fun other hother => ?_) ?_
  · rw [productionOf_of_spells h (hmem other hother)]
    split <;> simp [*]
  · rw [productionOf_of_spells h hown]
    split <;> simp [*, eq_comm]

end Spelled

/-! ## Messages -/

/-- The message tells the column of a place in the first line; what else it says stands on lines of
its own. -/
def ReportsColumn (message : String) (column : Nat) : Prop :=
  ∃ details, message = "Parse error at line: 1, column: " ++ toString column ++ details ∧
    ∀ next ∈ details.toList.head?, next = '\n'

private theorem newline_not_mem_of_extendable {front : List Char} (h : Extendable front) : '\n' ∉ front := by
  obtain ⟨rest, parsed, hspells⟩ := h
  intro hmem
  rcases hspells.isSymbolChar_or_isBlank '\n' (List.mem_append_left _ hmem) with hown | hown
  · exact ne_of_isSymbolChar hown '\n' (by decide) rfl
  · exact absurd hown (by decide)

private theorem foldl_advance {front : List Char} (h : '\n' ∉ front) (position : Position) :
    front.foldl Position.advance position = ⟨position.line, position.column + front.length⟩ := by
  induction front generalizing position with
  | nil => rfl
  | cons character rest ih =>
      obtain ⟨hown, hrest⟩ := not_or.mp (mt List.mem_cons.mpr h)
      rw [List.foldl_cons, ih hrest, Position.advance, if_neg (Ne.symm hown), List.length_cons,
        Nat.add_assoc, Nat.add_comm 1]

/-- A message with further lines behind the first one reports its column. -/
theorem reportsColumn_trimEnd (column : Nat) (details : String) :
    ReportsColumn (Text.trimEnd
      ("Parse error at line: 1, column: " ++ toString column ++ "\n" ++ details)) column := by
  have hdigit : ∀ last ∈ ("Parse error at line: 1, column: " ++ toString column).toList.getLast?,
      Text.isWhiteSpace last = false := by
    intro last hlast
    rw [String.toList_append, List.getLast?_append_of_ne_nil _ (toList_toString_ne_nil column)] at hlast
    exact isWhiteSpace_of_isDigit (isDigit_of_mem_toString (List.mem_of_getLast? hlast))
  refine ⟨Text.trimEnd ("\n" ++ details), ?_, fun next hnext => ?_⟩
  · rw [String.append_assoc, Text.trimEnd, Text.trimEnd, String.toList_append,
      Text.dropWhileEnd_append hdigit, String.ofList_append, String.ofList_toList]
  · obtain ⟨rest, hrest⟩ : (Text.trimEnd ("\n" ++ details)).toList <+: '\n' :: details.toList := by
      rw [Text.trimEnd, String.toList_ofList, String.toList_append]
      exact List.rdropWhile_prefix Text.isWhiteSpace _
    cases hleft : (Text.trimEnd ("\n" ++ details)).toList with
    | nil => simp [hleft] at hnext
    | cons first others =>
        rw [hleft] at hnext hrest
        cases hnext
        exact (List.cons.inj hrest).1

private theorem takeWhile_isDigit_toString (number : Nat) {behind : List Char}
    (h : ∀ next ∈ behind.head?, next = '\n') :
    ((toString number).toList ++ behind).takeWhile Char.isDigit = (toString number).toList := by
  have hbehind : behind.takeWhile Char.isDigit = [] := by
    cases behind with
    | nil => rfl
    | cons next rest =>
        obtain rfl : next = '\n' := h next rfl
        exact List.takeWhile_cons_of_neg (by decide)
  rw [List.takeWhile_append_of_pos fun _ hdigit => isDigit_of_mem_toString hdigit, hbehind,
    List.append_nil]

/-- The digits of a column end where the line ends. -/
theorem ReportsColumn.unique {message : String} {column other : Nat}
    (h : ReportsColumn message column) (hother : ReportsColumn message other) : other = column := by
  obtain ⟨details, rfl, hdetails⟩ := h
  obtain ⟨others, hsame, hothers⟩ := hother
  have hbehind : (toString column).toList ++ details.toList =
      (toString other).toList ++ others.toList := by
    have hlist := congrArg String.toList hsame
    simpa only [String.toList_append, List.append_assoc, List.append_cancel_left_eq] using hlist
  have hdigits := congrArg (List.takeWhile Char.isDigit) hbehind
  rw [takeWhile_isDigit_toString column hdetails, takeWhile_isDigit_toString other hothers] at hdigits
  rw [← ofDigitChars_toString other, ← hdigits, ofDigitChars_toString]

private theorem text_of_firstLine (column : Nat) : "Parse error at " ++ (Position.mk 1 column).text =
    "Parse error at line: 1, column: " ++ toString column := by
  have hfront : "Parse error at " ++ ("line: " ++ toString 1 ++ ", column: ") =
      "Parse error at line: 1, column: " := by decide
  rw [Position.text, ← String.append_assoc, hfront]

/-! ## Lines -/

section Documented

variable {library : Combinators} (h : library.Documented)
include h

theorem productionsOfLine_of_spells {line : String} (hspells : Spells parsed (bodyOf line))
    (number : Nat) :
    productionsOfLine library line number = parsed.productions.mapError (.production number) :=
  productionsOfLine_of_readLine h (readLine_eq_ok_iff.mpr hspells) number

/-- A line that is no production line is malformed, from the place on where it stops to fit. -/
theorem exists_productionsOfLine_of_not_spells {line : String}
    (hspells : ¬ ∃ parsed, Spells parsed (bodyOf line)) (number : Nat) :
    ∃ text front, productionsOfLine library line number = .error (.malformed number text) ∧
      FitsUpTo front (bodyOf line) ∧ ReportsColumn text (1 + front.length) := by
  cases hread : readLine (bodyOf line) with
  | ok parsed => exact absurd ⟨parsed, readLine_eq_ok_iff.mp hread⟩ hspells
  | error left =>
      obtain ⟨front, details, hbody, hmalformed⟩ :=
        exists_productionsOfLine_of_readLine_error h hread number
      rw [hbody] at hread ⊢
      have hfits := fitsUpTo_of_readLine_error hread
      refine ⟨_, front, hmalformed, hfits, ?_⟩
      have hplace : Position.behind front = ⟨1, 1 + front.length⟩ :=
        foldl_advance (newline_not_mem_of_extendable hfits.extendable) _
      rw [hplace, text_of_firstLine]
      exact reportsColumn_trimEnd _ details

theorem productionsOfLine_eq_malformed_iff {line : String} {number : Nat} :
    (∃ text, productionsOfLine library line number = .error (.malformed number text)) ↔
      ¬ ∃ parsed, Spells parsed (bodyOf line) := by
  constructor
  · rintro ⟨text, hmalformed⟩ ⟨parsed, hspells⟩
    rw [productionsOfLine_of_spells h hspells] at hmalformed
    cases hmade : parsed.productions <;> rw [hmade] at hmalformed <;> cases hmalformed
  · intro hspells
    obtain ⟨text, -, hmalformed, -⟩ := exists_productionsOfLine_of_not_spells h hspells number
    exact ⟨text, hmalformed⟩

end Documented

/-- What is read of a line is right whatever stands in it.  It is a production line exactly if its
characters before the line end are spelled as one, and otherwise the column that is reported is the
one behind the longest beginning that could be continued to a production line.  Each alternative of
a production line, from left to right, is read character by character, up to the first that mentions
the empty string or the end of the input where it must not. -/
theorem productionsOfLine_exact {library : Combinators} (h : library.Documented) (line : String)
    (number : Nat) :
    ((∃ text, productionsOfLine library line number = .error (.malformed number text)) ↔
        ¬ ∃ parsed, Spells parsed (bodyOf line)) ∧
      (∀ text, productionsOfLine library line number = .error (.malformed number text) →
        ∃ front, FitsUpTo front (bodyOf line) ∧
          ∀ column, ReportsColumn text column ↔ column = 1 + front.length) ∧
      (∀ parsed, Spells parsed (bodyOf line) →
        ((∀ alternative ∈ parsed.alternatives, IsProper alternative) →
          productionsOfLine library line number = .ok (parsed.alternatives.map fun alternative =>
            ⟨.ofChar parsed.lhs, alternative.toList.map .ofChar⟩)) ∧
        ∀ before alternative after, parsed.alternatives = before ++ alternative :: after →
          (∀ other ∈ before, IsProper other) → ¬ IsProper alternative →
            productionsOfLine library line number =
              .error (.production number (alternativeError parsed.lhs alternative))) ∧
      ∀ error, productionsOfLine library line number = .error error →
        (∃ text, error = .malformed number text) ∨
          ∃ parsed, Spells parsed (bodyOf line) ∧ ∃ alternative ∈ parsed.alternatives,
            ¬ IsProper alternative ∧
              error = .production number (alternativeError parsed.lhs alternative) := by
  refine ⟨productionsOfLine_eq_malformed_iff h, fun text hmalformed => ?_,
    fun parsed hspells => ⟨fun hproper => ?_, ?_⟩, fun error herror => ?_⟩
  · obtain ⟨other, front, hother, hfits, hreports⟩ := exists_productionsOfLine_of_not_spells h
      ((productionsOfLine_eq_malformed_iff h).mp ⟨text, hmalformed⟩) number
    rw [hmalformed] at hother
    cases hother
    refine ⟨front, hfits, fun column => ⟨hreports.unique, ?_⟩⟩
    rintro rfl
    exact hreports
  · rw [productionsOfLine_of_spells h hspells, productions_of_isProper hspells hproper]
    rfl
  · intro before alternative after hsplit hbefore hoffends
    have hrefused := (productions_eq_error_iff hspells).mpr
      ⟨before, alternative, after, hsplit, hbefore, hoffends, rfl⟩
    rw [productionsOfLine_of_spells h hspells, hrefused]
    rfl
  · by_cases hform : ∃ parsed, Spells parsed (bodyOf line)
    · obtain ⟨parsed, hspells⟩ := hform
      rw [productionsOfLine_of_spells h hspells] at herror
      cases hmade : parsed.productions with
      | ok productions =>
          rw [hmade] at herror
          cases herror
      | error fault =>
          rw [hmade] at herror
          obtain ⟨before, alternative, after, hsplit, -, hoffends, rfl⟩ :=
            (productions_eq_error_iff hspells).mp hmade
          have hmem : alternative ∈ parsed.alternatives :=
            hsplit ▸ List.mem_append_right _ List.mem_cons_self
          exact .inr ⟨parsed, hspells, alternative, hmem, hoffends, (Except.error.inj herror).symm⟩
    · obtain ⟨text, hmalformed⟩ := (productionsOfLine_eq_malformed_iff h).mpr hform
      rw [hmalformed] at herror
      exact .inl ⟨text, (Except.error.inj herror).symm⟩

/-- White space that is no blank does not separate alternatives, nor does it stand in one. -/
theorem productionsOfLine_exact_space :
    ReportsColumn "Parse error at line: 1, column: 7\nUnexpected `\u00a0`\nExpected end of input" 7 ∧
      productionsOfLine .standard "A -> a\u00a0b\r\n" 1 = .error (.malformed 1
        "Parse error at line: 1, column: 7\nUnexpected `\u00a0`\nExpected end of input") ∧
      FitsUpTo "A -> a".toList (bodyOf "A -> a\u00a0b\r\n") := by
  have hread : productionsOfLine .standard "A -> a\u00a0b\r\n" 1 = .error (.malformed 1
      "Parse error at line: 1, column: 7\nUnexpected `\u00a0`\nExpected end of input") := by
    decide +kernel
  have hreports : ReportsColumn
      "Parse error at line: 1, column: 7\nUnexpected `\u00a0`\nExpected end of input" 7 :=
    ⟨"\nUnexpected `\u00a0`\nExpected end of input", by decide +kernel, by simp⟩
  obtain ⟨-, hplace, -⟩ :=
    productionsOfLine_exact Combinators.standard_documented "A -> a\u00a0b\r\n" 1
  obtain ⟨front, hfits, hcolumn⟩ := hplace _ hread
  have hlength : 7 = 1 + front.length := (hcolumn 7).mp hreports
  have hfront : front = "A -> a".toList := by
    rw [List.prefix_iff_eq_take.mp hfits.isPrefix, (by omega : front.length = 6)]
    decide
  exact ⟨hreports, hread, hfront ▸ hfits⟩

end TableParsing.GrammarText
