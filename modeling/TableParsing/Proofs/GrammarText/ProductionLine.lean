import Mathlib.Data.List.TakeWhile
import TableParsing.GrammarText.Writer
import TableParsing.Proofs.GrammarText.LineParser
import TableParsing.Proofs.GrammarText.Regrouping
import TableParsing.Proofs.InputLines
import TableParsing.Proofs.Lists
import TableParsing.Proofs.Validity

/-!
# Production lines, written and read

The symbols that a text can spell are those of a single character that is not white
space (`Symbol.IsPlain`), and the productions are those from an uppercase letter to
such symbols (`Production.IsPlain`).  They are what the reader makes of a line, and
for them the line tells everything: the atoms of a right-hand side, put together,
come apart again character by character (`productionOf_alternativeOf`), alternatives
with a blank between them are told apart by the blanks
(`takeAlternatives_intercalate`), so the line of a left-hand side is read as its
productions (`productionsOfLine_lineOf`).

The empty alternative is no exception: the mark of the empty string is the symbol
that the character `e` stands for.
-/

namespace TableParsing

/-! ## Symbols of one character -/

namespace Symbol

/-- Some character of an alternative stands for the symbol. -/
def IsPlain (symbol : Symbol) : Prop :=
  ∃ character, GrammarText.isSymbolChar character = true ∧ ofChar character = symbol

@[simp] theorem atom_classify (atom : String) : (classify atom).atom = atom := by
  unfold classify
  split
  · rename_i hatom
    exact (String.toList_inj.mp hatom).symm
  · rename_i hatom
    exact (String.toList_inj.mp hatom).symm
  · split <;> rfl
  · rfl

@[simp] theorem atom_ofChar (character : Char) :
    (ofChar character).atom = String.singleton character := atom_classify _

theorem ofChar_injective : Function.Injective ofChar := by
  intro first second h
  have hatom : String.singleton first = String.singleton second := by
    rw [← atom_ofChar, h, atom_ofChar]
  simpa using congrArg String.toList hatom

theorem ofChar_of_isUpper {letter : Char} (h : letter.isUpper = true) :
    ofChar letter = .nonterminal (String.singleton letter) := by
  unfold ofChar classify
  rw [String.toList_singleton]
  split
  · rename_i hletter
    cases hletter
    cases h
  · rename_i hletter
    cases hletter
    cases h
  · rename_i hletter
    cases hletter
    rw [if_pos h]
  · rename_i hother
    exact absurd rfl (hother letter)

/-- The atoms of plain symbols, put together, come apart again. -/
theorem map_ofChar_atoms {symbols : List Symbol} (h : ∀ symbol ∈ symbols, symbol.IsPlain) :
    (symbols.flatMap fun symbol => symbol.atom.toList).map ofChar = symbols := by
  induction symbols with
  | nil => rfl
  | cons symbol rest ih =>
      obtain ⟨character, _, rfl⟩ := h symbol List.mem_cons_self
      rw [List.flatMap_cons, List.map_append,
        ih fun other hother => h other (List.mem_cons_of_mem _ hother), atom_ofChar,
        String.toList_singleton]
      rfl

end Symbol

/-- An uppercase letter leads to symbols that are spelled by one character each. -/
structure Production.IsPlain (production : Production) : Prop where
  lhs : ∃ letter : Char, letter.isUpper = true ∧ production.lhs = .ofChar letter
  rhs : ∀ symbol ∈ production.rhs, symbol.IsPlain

namespace GrammarText

/-! ## Characters -/

theorem isUpper_iff {letter : Char} :
    letter.isUpper = true ↔ 65 ≤ letter.toNat ∧ letter.toNat ≤ 90 := by
  show decide ('A'.val ≤ letter.val ∧ letter.val ≤ 'Z'.val) = true ↔ _
  rw [decide_eq_true_iff, UInt32.le_iff_toNat_le, UInt32.le_iff_toNat_le]
  rfl

/-- Visible ASCII characters are not white space. -/
theorem isSymbolChar_of_visible {character : Char} (h : 32 < character.toNat)
    (h' : character.toNat < 127) : isSymbolChar character = true := by
  simp only [isSymbolChar, Text.isWhiteSpace, Text.whiteSpaceRanges, Text.CharRanges.contains,
    List.any_cons, List.any_nil, Bool.or_false, Bool.not_eq_true', Bool.or_eq_false_iff,
    Bool.and_eq_false_iff, decide_eq_false_iff_not]
  omega

theorem isSymbolChar_of_isUpper {letter : Char} (h : letter.isUpper = true) :
    isSymbolChar letter = true := by
  rw [isUpper_iff] at h
  exact isSymbolChar_of_visible (by omega) (by omega)

/-- The characters that end or divide a line do not stand in alternatives. -/
theorem ne_of_isSymbolChar {character : Char} (h : isSymbolChar character = true) (space : Char)
    (hspace : isSymbolChar space = false) : character ≠ space := by
  rintro rfl
  rw [h] at hspace
  cases hspace

theorem isBlank_of_isSymbolChar {character : Char} (h : isSymbolChar character = true) :
    isBlank character = false := by
  simp [isBlank, ne_of_isSymbolChar h ' ' (by decide),
    ne_of_isSymbolChar h '\t' (by decide)]

theorem skipBlanks_of_isSymbolChar {character : Char} (h : isSymbolChar character = true)
    (rest : List Char) : skipBlanks (character :: rest) = character :: rest :=
  List.dropWhile_cons_of_neg (by simp [isBlank_of_isSymbolChar h])

/-! ## Alternatives of a line -/

/-- A run of one or more characters that are not white space. -/
structure IsAlternative (characters : List Char) : Prop where
  ne_nil : characters ≠ []
  isSymbolChar : ∀ character ∈ characters, isSymbolChar character = true

theorem isAlternative_takeWhile {character : Char} (h : isSymbolChar character = true)
    (rest : List Char) : IsAlternative (character :: rest.takeWhile isSymbolChar) := by
  refine ⟨List.cons_ne_nil _ _, fun other hother => ?_⟩
  rcases List.mem_cons.mp hother with rfl | hother
  · exact h
  · exact List.mem_takeWhile_imp hother

private theorem intercalate_cons (first : List Char) (rest : List (List Char)) :
    [' '].intercalate (first :: rest) = first ++ rest.flatMap (' ' :: ·) := by
  induction rest generalizing first with
  | nil => simp
  | cons next others ih => simp [List.intercalate_cons_cons, ih]

/-- An alternative reaches as far as its characters do. -/
theorem takeAlternatives_append {alternative rest : List Char} (h : IsAlternative alternative)
    (hrest : ∀ next ∈ rest.head?, isSymbolChar next = false) :
    takeAlternatives (alternative ++ rest) =
      (alternative :: (takeAlternatives (skipBlanks rest)).1,
        (takeAlternatives (skipBlanks rest)).2) := by
  have hends : rest.takeWhile isSymbolChar = [] ∧ rest.dropWhile isSymbolChar = rest := by
    cases rest with
    | nil => exact ⟨rfl, rfl⟩
    | cons next others =>
        have hnext : ¬ isSymbolChar next = true := by simp [hrest next rfl]
        exact ⟨List.takeWhile_cons_of_neg hnext, List.dropWhile_cons_of_neg hnext⟩
  obtain ⟨first, characters, rfl⟩ := List.exists_cons_of_ne_nil h.ne_nil
  have hfirst := h.isSymbolChar first List.mem_cons_self
  have hcharacters : ∀ character ∈ characters, GrammarText.isSymbolChar character = true :=
    fun character hcharacter => h.isSymbolChar character (List.mem_cons_of_mem _ hcharacter)
  rw [List.cons_append, takeAlternatives, if_pos hfirst, List.takeWhile_append_of_pos hcharacters,
    List.dropWhile_append_of_pos hcharacters, hends.1, hends.2, List.append_nil]

theorem IsAlternative.skipBlanks_append {alternative : List Char} (h : IsAlternative alternative)
    (rest : List Char) : skipBlanks (alternative ++ rest) = alternative ++ rest := by
  obtain ⟨first, others, rfl⟩ := List.exists_cons_of_ne_nil h.ne_nil
  exact skipBlanks_of_isSymbolChar (h.isSymbolChar first List.mem_cons_self) _

/-- Alternatives with a blank between them are told apart. -/
theorem takeAlternatives_intercalate {alternatives : List (List Char)}
    (h : ∀ alternative ∈ alternatives, IsAlternative alternative) :
    takeAlternatives (skipBlanks ([' '].intercalate alternatives)) = (alternatives, []) := by
  induction alternatives with
  | nil => rw [List.intercalate_nil, skipBlanks, List.dropWhile_nil, takeAlternatives]
  | cons alternative rest ih =>
      have halternative := h alternative List.mem_cons_self
      have hrest := ih fun other hother => h other (List.mem_cons_of_mem _ hother)
      -- behind the first alternative stands nothing, or a blank and the other ones
      have hskip : skipBlanks (rest.flatMap (' ' :: ·)) = skipBlanks ([' '].intercalate rest) ∧
          ∀ next ∈ (rest.flatMap (' ' :: ·)).head?, isSymbolChar next = false := by
        cases rest with
        | nil => exact ⟨rfl, by simp⟩
        | cons next others =>
            rw [intercalate_cons]
            exact ⟨rfl, fun space hspace => by cases hspace; rfl⟩
      rw [intercalate_cons, halternative.skipBlanks_append,
        takeAlternatives_append halternative hskip.2, hskip.1, hrest]

theorem isAlternative_of_mem_takeAlternatives (characters : List Char) :
    ∀ alternative ∈ (takeAlternatives characters).1, IsAlternative alternative := by
  fun_induction takeAlternatives characters with
  | case1 => simp
  | case2 character rest hcharacter following ih =>
      intro alternative halternative
      rcases List.mem_cons.mp halternative with rfl | hlater
      · exact isAlternative_takeWhile hcharacter rest
      · exact ih alternative hlater
  | case3 => simp

/-! ## Alternatives as productions -/

/-- An alternative is read character by character, `e` alone as well. -/
theorem productionOf_eq (lhs : Char) (alternative : String) :
    productionOf lhs alternative =
      Production.make (.ofChar lhs) (alternative.toList.map Symbol.ofChar) := by
  unfold productionOf
  split
  · rename_i hempty
    subst hempty
    rfl
  · rfl

/-- A right-hand side is written atom by atom, the mark of the empty string as well. -/
theorem toList_alternativeOf (production : Production) :
    (alternativeOf production).toList = production.rhs.flatMap fun symbol => symbol.atom.toList := by
  unfold alternativeOf
  split
  · rename_i hempty
    have hrhs : production.rhs = [.epsilon] := by simpa [Production.isEpsilon] using hempty
    rw [hrhs]
    rfl
  · rw [String.toList_join, List.flatMap_map]

/-- A plain production is read from what is written of it. -/
theorem productionOf_alternativeOf {production : Production} (hvalid : production.Valid)
    (hplain : ∀ symbol ∈ production.rhs, symbol.IsPlain) {letter : Char}
    (hletter : production.lhs = .ofChar letter) :
    productionOf letter (alternativeOf production) = .ok production := by
  rw [productionOf_eq, toList_alternativeOf, Symbol.map_ofChar_atoms hplain, ← hletter]
  exact Production.make_eq_ok_iff.mpr ⟨rfl, hvalid⟩

theorem isAlternative_alternativeOf {production : Production} (hvalid : production.Valid)
    (hplain : ∀ symbol ∈ production.rhs, symbol.IsPlain) :
    IsAlternative (alternativeOf production).toList := by
  rw [toList_alternativeOf]
  constructor
  · obtain ⟨symbol, hsymbol⟩ := List.exists_mem_of_ne_nil _ hvalid.rhs_ne_nil
    obtain ⟨character, _, rfl⟩ := hplain symbol hsymbol
    refine List.ne_nil_of_mem (a := character) (List.mem_flatMap.mpr ⟨_, hsymbol, ?_⟩)
    simp
  · intro character hcharacter
    obtain ⟨symbol, hsymbol, hatom⟩ := List.mem_flatMap.mp hcharacter
    obtain ⟨own, hown, rfl⟩ := hplain symbol hsymbol
    have hsame : character = own := by simpa using hatom
    exact hsame ▸ hown

theorem isPlain_of_productionOf {letter : Char} (hletter : letter.isUpper = true)
    {alternative : String} (halternative : IsAlternative alternative.toList)
    {production : Production} (h : productionOf letter alternative = .ok production) :
    production.IsPlain := by
  rw [productionOf_eq] at h
  obtain ⟨rfl, _⟩ := Production.make_eq_ok_iff.mp h
  refine ⟨⟨letter, hletter, rfl⟩, fun symbol hsymbol => ?_⟩
  obtain ⟨character, hcharacter, rfl⟩ := List.mem_map.mp hsymbol
  exact ⟨character, halternative.isSymbolChar character hcharacter, rfl⟩

/-! ## Lines -/

/-- The characters of a line without its line feed. -/
def lineChars (lhs : Char) (alternatives : List (List Char)) : List Char :=
  lhs :: ' ' :: '-' :: '>' :: ' ' :: [' '].intercalate alternatives

private theorem isSymbolChar_of_mem_lineChars {lhs : Char} (hlhs : lhs.isUpper = true)
    {alternatives : List (List Char)}
    (h : ∀ alternative ∈ alternatives, IsAlternative alternative) :
    ∀ character ∈ lineChars lhs alternatives, isSymbolChar character = true ∨ character = ' ' := by
  have hjoined : ∀ character ∈ [' '].intercalate alternatives,
      isSymbolChar character = true ∨ character = ' ' := by
    cases alternatives with
    | nil => simp
    | cons first rest =>
        intro character hcharacter
        simp only [intercalate_cons, List.mem_append, List.mem_flatMap, List.mem_cons] at hcharacter
        rcases hcharacter with hfirst | ⟨other, hother, hblank | hlater⟩
        · exact .inl ((h first List.mem_cons_self).isSymbolChar character hfirst)
        · exact .inr hblank
        · exact .inl ((h other (List.mem_cons_of_mem _ hother)).isSymbolChar character hlater)
  intro character hcharacter
  simp only [lineChars, List.mem_cons] at hcharacter
  rcases hcharacter with rfl | rfl | rfl | rfl | rfl | hlater
  · exact .inl (isSymbolChar_of_isUpper hlhs)
  · exact .inr rfl
  · exact .inl (by decide)
  · exact .inl (by decide)
  · exact .inr rfl
  · exact hjoined character hlater

theorem readLine_lineChars {lhs : Char} (hlhs : lhs.isUpper = true) {alternatives : List (List Char)}
    (hsome : alternatives ≠ []) (h : ∀ alternative ∈ alternatives, IsAlternative alternative) :
    readLine (lineChars lhs alternatives) = .ok ⟨lhs, alternatives.map String.ofList⟩ := by
  have hskip : ∀ rest, skipBlanks (' ' :: rest) = skipBlanks rest := fun rest => rfl
  have hdash : ∀ rest, skipBlanks ('-' :: rest) = '-' :: rest := fun rest => rfl
  obtain ⟨first, rest, rfl⟩ := List.exists_cons_of_ne_nil hsome
  have hmark : ∀ own rest, takeChar (· == own) (own :: rest) = .ok (own, rest) := fun own rest =>
    if_pos (beq_self_eq_true own)
  rw [readLine, lineChars, skipBlanks_of_isSymbolChar (isSymbolChar_of_isUpper hlhs), takeChar,
    if_pos hlhs]
  simp only [Except.bind, readArrow, hskip, hdash, hmark, readAlternatives,
    takeAlternatives_intercalate h]

theorem toList_lineOf (productions : List Production) {letter : Char} {lhs : Symbol}
    (h : lhs = .ofChar letter) :
    (lineOf productions lhs).toList = lineChars letter
      ((group lhs productions).map fun production => (alternativeOf production).toList) ++ ['\n'] := by
  have harrow : " -> ".toList = [' ', '-', '>', ' '] := rfl
  have hblank : " ".toList = [' '] := rfl
  have hnewline : "\n".toList = ['\n'] := rfl
  have hatom : lhs.atom.toList = [letter] := by rw [h, Symbol.atom_ofChar, String.toList_singleton]
  simp only [lineOf, String.toList_append, String.toList_intercalate, List.map_map, hatom, harrow,
    hblank, hnewline]
  rfl

/-- From a line its line feed is taken, and nothing else. -/
theorem bodyOf_eq {line : String} {body : List Char} (hline : line.toList = body ++ ['\n'])
    (hbody : ∀ character ∈ body, isSymbolChar character = true ∨ character = ' ') :
    bodyOf line = body := by
  have hstays : ∀ character ∈ body, (character == '\n' || character == '\r') = false := by
    intro character hcharacter
    rcases hbody character hcharacter with hvisible | rfl
    · simp [ne_of_isSymbolChar hvisible '\n' (by decide),
        ne_of_isSymbolChar hvisible '\r' (by decide)]
    · rfl
  rw [bodyOf, hline, Text.dropWhileEnd_append fun last hlast =>
    hstays last (List.mem_of_getLast? hlast)]
  exact List.append_nil body

section Plain

variable {productions : List Production} (hvalid : ∀ production ∈ productions, production.Valid)
  (hplain : ∀ production ∈ productions, production.IsPlain)
include hvalid hplain

theorem isAlternative_of_mem_group (lhs : Symbol) :
    ∀ alternative ∈ (group lhs productions).map fun production => (alternativeOf production).toList,
      IsAlternative alternative := by
  intro alternative halternative
  obtain ⟨production, hproduction, rfl⟩ := List.mem_map.mp halternative
  obtain ⟨hin, _⟩ := mem_group.mp hproduction
  exact isAlternative_alternativeOf (hvalid production hin) (hplain production hin).rhs

/-- A line has its line feed at the end and nowhere else. -/
theorem exists_toList_lineOf {lhs : Symbol} (hlhs : lhs ∈ heads productions) :
    ∃ body, '\n' ∉ body ∧ (lineOf productions lhs).toList = body ++ ['\n'] := by
  obtain ⟨first, hfirst, rfl⟩ := mem_heads.mp hlhs
  obtain ⟨letter, hupper, hletter⟩ := (hplain first hfirst).lhs
  refine ⟨_, fun hnewline => ?_, toList_lineOf productions hletter⟩
  rcases isSymbolChar_of_mem_lineChars hupper (isAlternative_of_mem_group hvalid hplain _) _ hnewline
    with hvisible | hblank
  · exact ne_of_isSymbolChar hvisible '\n' (by decide) rfl
  · exact absurd hblank (by decide)

theorem productionsOfLine_lineOf {library : Combinators} (h : library.Documented) {lhs : Symbol}
    (hlhs : lhs ∈ heads productions) (number : Nat) :
    productionsOfLine library (lineOf productions lhs) number = .ok (group lhs productions) := by
  obtain ⟨first, hfirst, rfl⟩ := mem_heads.mp hlhs
  obtain ⟨letter, hupper, hletter⟩ := (hplain first hfirst).lhs
  have halternatives := isAlternative_of_mem_group hvalid hplain first.lhs
  have hsome : (group first.lhs productions).map (fun production => (alternativeOf production).toList) ≠
      [] := List.ne_nil_of_mem (List.mem_map_of_mem (mem_group.mpr ⟨hfirst, rfl⟩))
  have hread : readLine (bodyOf (lineOf productions first.lhs)) =
      .ok ⟨letter, (group first.lhs productions).map alternativeOf⟩ := by
    rw [bodyOf_eq (toList_lineOf productions hletter)
      (isSymbolChar_of_mem_lineChars hupper halternatives), readLine_lineChars hupper hsome halternatives,
      List.map_map]
    simp [Function.comp_def]
  have hmade : ((group first.lhs productions).map alternativeOf).mapM (productionOf letter) =
      .ok (group first.lhs productions) := by
    rw [mapM_eq_ok_iff, List.forall₂_map_left_iff, List.forall₂_same]
    intro production hproduction
    obtain ⟨hin, hsame⟩ := mem_group.mp hproduction
    exact productionOf_alternativeOf (hvalid production hin) (hplain production hin).rhs
      (hsame.trans hletter)
  rw [productionsOfLine_of_readLine h hread, ProductionLine.productions, hmade]
  rfl

end Plain

/-! ## Lines that were read -/

private theorem isAlternative_of_readAlternatives {rest : List Char} {lhs : Char}
    {parsed : ProductionLine} (h : readAlternatives lhs rest = .ok parsed) :
    parsed.lhs = lhs ∧ ∀ alternative ∈ parsed.alternatives, IsAlternative alternative.toList := by
  have htaken := isAlternative_of_mem_takeAlternatives (skipBlanks rest)
  unfold readAlternatives at h
  split at h
  · cases h
  · rename_i alternatives _ hsame
    cases h
    rw [hsame] at htaken
    refine ⟨rfl, fun alternative halternative => ?_⟩
    obtain ⟨characters, hcharacters, rfl⟩ := List.mem_map.mp halternative
    rw [String.toList_ofList]
    exact htaken characters hcharacters
  · cases h

/-- What is read from a character on begins with one that passes the test. -/
private theorem exists_of_takeChar_bind {α : Type} {test : Char → Bool}
    {next : Char × List Char → Except (List Char) α} {input : List Char} {value : α}
    (h : (takeChar test input).bind next = .ok value) :
    ∃ taken, test taken.1 = true ∧ next taken = .ok value := by
  cases input with
  | nil => cases h
  | cons character rest =>
      rw [takeChar] at h
      by_cases hpasses : test character = true
      · rw [if_pos hpasses] at h
        exact ⟨(character, rest), hpasses, h⟩
      · rw [if_neg hpasses] at h
        cases h

/-- A line that was read begins with an uppercase letter and goes on to alternatives. -/
theorem isAlternative_of_readLine {line : List Char} {parsed : ProductionLine}
    (h : readLine line = .ok parsed) :
    parsed.lhs.isUpper = true ∧
      ∀ alternative ∈ parsed.alternatives, IsAlternative alternative.toList := by
  obtain ⟨letter, hupper, harrow⟩ := exists_of_takeChar_bind h
  obtain ⟨dash, _, hmark⟩ := exists_of_takeChar_bind harrow
  obtain ⟨mark, _, hread⟩ := exists_of_takeChar_bind hmark
  obtain ⟨hlhs, halternatives⟩ := isAlternative_of_readAlternatives hread
  exact ⟨hlhs ▸ hupper, halternatives⟩

theorem isPlain_of_productionsOfLine {library : Combinators} (hlibrary : library.Documented)
    {line : String} {number : Nat} {productions : List Production}
    (h : productionsOfLine library line number = .ok productions) :
    ∀ production ∈ productions, production.IsPlain := by
  cases hread : readLine (bodyOf line) with
  | error left =>
      obtain ⟨_, _, _, hmalformed⟩ :=
        exists_productionsOfLine_of_readLine_error hlibrary hread number
      rw [hmalformed] at h
      cases h
  | ok parsed =>
      obtain ⟨hupper, halternatives⟩ := isAlternative_of_readLine hread
      rw [productionsOfLine_of_readLine hlibrary hread] at h
      cases hmade : parsed.productions with
      | error fault =>
          rw [hmade] at h
          cases h
      | ok made =>
          rw [hmade] at h
          cases h
          have hall := mapM_eq_ok_iff.mp hmade
          clear hmade hread
          generalize parsed.alternatives = alternatives at hall halternatives
          induction hall with
          | nil => simp
          | cons hfirst _ ih =>
              intro production hproduction
              rcases List.mem_cons.mp hproduction with rfl | hlater
              · exact isPlain_of_productionOf hupper (halternatives _ List.mem_cons_self) hfirst
              · exact ih (fun other hother => halternatives other (List.mem_cons_of_mem _ hother))
                  production hlater

end GrammarText

end TableParsing
