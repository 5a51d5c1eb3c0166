import TableParsing.GrammarText.Reader
import TableParsing.Proofs.GrammarText.ProductionLine
import TableParsing.Proofs.InputLines

/-!
# The lines of a grammar text

A text is cut into the lines that it was put together from, if each of them has its
line feed at its end and nowhere else (`linesOfText_join`).  The first line is read as
a count, which is spelled by decimal digits (`count?_eq_some_iff`), those of a number
among others (`readCount_toString`).  Then as many lines are read as the count says, each for
itself, and what they give is put together in their order (`readLines_map`).
-/

namespace TableParsing

/-! ## Lines of a text -/

namespace Text

/-- A text that was put together from lines is cut into them. -/
theorem linesOfText_join {contents : List String}
    (h : ∀ content ∈ contents, IsClosed '\n' content.toList) :
    linesOfText (String.join contents) = contents.map .text := by
  have hpieces : cutAfter '\n' (contents.map String.toList).flatten = contents.map String.toList :=
    cutAfter_flatten fun piece hpiece => by
      obtain ⟨content, hcontent, rfl⟩ := List.mem_map.mp hpiece
      exact h content hcontent
  rw [linesOfText, String.toList_join, List.flatMap_def, hpieces, List.map_map]
  simp [Function.comp_def]

/-- Nothing but the line feed is cut off from a text without white space. -/
theorem trim_append_newline {text : String} (hsome : text.toList ≠ [])
    (h : ∀ character ∈ text.toList, isWhiteSpace character = false) : trim (text ++ "\n") = text := by
  obtain ⟨first, rest, hfirst⟩ := List.exists_cons_of_ne_nil hsome
  have hfront : (text.toList ++ ['\n']).dropWhile isWhiteSpace = text.toList ++ ['\n'] := by
    rw [hfirst] at h ⊢
    exact List.dropWhile_cons_of_neg (by simp [h first List.mem_cons_self])
  have hback : dropWhileEnd isWhiteSpace (text.toList ++ ['\n']) = text.toList := by
    rw [dropWhileEnd_append fun last hlast => h last (List.mem_of_getLast? hlast)]
    exact List.append_nil _
  have hnewline : "\n".toList = ['\n'] := rfl
  rw [trim, String.toList_append, hnewline, hfront, hback, String.ofList_toList]

end Text

namespace GrammarText

open Text (Line)

/-! ## The count -/

/-- Decimal digits have a value, and nothing else has. -/
theorem digitsValue?_eq_some_iff {digits : List Char} {value total : Nat} :
    digitsValue? value digits = some total ↔
      (∀ digit ∈ digits, digit.isDigit = true) ∧ Nat.ofDigitChars 10 digits value = total := by
  induction digits generalizing value with
  | nil => simp [digitsValue?]
  | cons digit rest ih =>
      rw [digitsValue?, List.forall_mem_cons, Nat.ofDigitChars_cons, and_assoc]
      by_cases hdigit : digit.isDigit = true
      · rw [if_pos hdigit, ih]
        simp only [hdigit, true_and]
        rfl
      · simp [hdigit]

/-- A count is spelled by decimal digits, one or more of them, and a plus sign or none before them; its
value stays below the limit. -/
theorem count?_eq_some_iff {characters : List Char} {value : Nat} :
    count? characters = some value ↔ ∃ digits, (characters = digits ∨ characters = '+' :: digits) ∧
      digits ≠ [] ∧ (∀ digit ∈ digits, digit.isDigit = true) ∧
        Nat.ofDigitChars 10 digits 0 = value ∧ value < countLimit := by
  unfold count?
  split
  · -- a plus sign is no digit
    simp [digitsValue?_eq_some_iff, Option.filter_eq_some_iff, and_assoc]
  · rename_i hsign
    have hnosign : ∀ digits, characters ≠ '+' :: digits := hsign
    simp [digitsValue?_eq_some_iff, Option.filter_eq_some_iff, and_assoc, hnosign]

theorem isWhiteSpace_of_isDigit {character : Char} (h : character.isDigit = true) :
    Text.isWhiteSpace character = false := by
  have hcode : 48 ≤ character.toNat ∧ character.toNat ≤ 57 := Char.isDigit_iff_toNat.mp h
  have hvisible : isSymbolChar character = true := isSymbolChar_of_visible (by omega) (by omega)
  simpa [isSymbolChar] using hvisible

theorem isDigit_of_mem_toString {number : Nat} {character : Char}
    (h : character ∈ (toString number).toList) : character.isDigit = true := by
  rw [Nat.toString_eq_repr, Nat.toList_repr] at h
  exact Nat.isDigit_of_mem_toDigits (by decide) (by decide) h

theorem toList_toString_ne_nil (number : Nat) : (toString number).toList ≠ [] := by
  rw [Nat.toString_eq_repr, Nat.toList_repr]
  exact Nat.toDigits_ne_nil

theorem ofDigitChars_toString (number : Nat) :
    Nat.ofDigitChars 10 (toString number).toList 0 = number := by
  rw [Nat.toString_eq_repr, Nat.toList_repr, Nat.ofDigitChars_ten_toDigits]

theorem count?_toString {number : Nat} (h : number < countLimit) :
    count? (toString number).toList = some number :=
  count?_eq_some_iff.mpr ⟨_, .inl rfl, toList_toString_ne_nil number,
    fun _ hdigit => isDigit_of_mem_toString hdigit, ofDigitChars_toString number, h⟩

theorem readCount_toString {value : Nat} (h : value < countLimit) (number : Nat) (rest : List Line) :
    readCount number (.text (toString value ++ "\n") :: rest) = ⟨.ok ⟨value, number⟩, rest⟩ := by
  have htrim : Text.trim (toString value ++ "\n") = toString value :=
    Text.trim_append_newline (toList_toString_ne_nil value) fun _ hcharacter =>
      isWhiteSpace_of_isDigit (isDigit_of_mem_toString hcharacter)
  have hsome : (toString value).isEmpty = false := by
    rw [← Bool.not_eq_true, String.isEmpty_iff]
    intro hempty
    exact toList_toString_ne_nil value (by rw [hempty]; rfl)
  simp only [readCount, htrim, hsome, Bool.false_eq_true, if_false, count?_toString h]

/-! ## The production lines -/

/-- As many lines as are still expected are read one by one. -/
theorem readLines_map {library : Combinators} {α : Type} {content : α → String}
    {made : α → List Production} (parts : List α)
    (h : ∀ part ∈ parts, ∀ number, productionsOfLine library (content part) number = .ok (made part))
    (line found : Nat) (productions : List Production) :
    readLines library line (found + parts.length) found productions
        (parts.map fun part => .text (content part)) =
      ⟨.ok (productions ++ parts.flatMap made), []⟩ := by
  induction parts generalizing line found productions with
  | nil => simp [readLines]
  | cons part rest ih =>
      have hmore : found ≠ found + (part :: rest).length := by simp
      have hcount : found + (part :: rest).length = found + 1 + rest.length := by
        rw [List.length_cons]; omega
      rw [List.map_cons, readLines, if_neg hmore]
      simp only [h part List.mem_cons_self]
      rw [hcount, ih fun other hother => h other (List.mem_cons_of_mem _ hother), List.flatMap_cons,
        List.append_assoc]

theorem isPlain_of_readLines {library : Combinators} (hlibrary : library.Documented)
    {line expected found : Nat} {before productions : List Production} {lines : List Line}
    (hbefore : ∀ production ∈ before, production.IsPlain)
    (h : (readLines library line expected found before lines).outcome = .ok productions) :
    ∀ production ∈ productions, production.IsPlain := by
  fun_induction readLines library line expected found before lines with
  | case1 | case3 =>
      cases h
      exact hbefore
  | case2 | case4 | case5 => cases h
  | case6 line found before rest hmore content more hread ih =>
      refine ih (fun production hproduction => ?_) h
      rcases List.mem_append.mp hproduction with hearlier | hlast
      · exact hbefore production hearlier
      · exact isPlain_of_productionsOfLine hlibrary hread production hlast

end GrammarText

end TableParsing
