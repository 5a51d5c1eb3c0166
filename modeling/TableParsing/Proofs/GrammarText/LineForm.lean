import Mathlib.Data.List.DropRight
import TableParsing.Proofs.GrammarText.ProductionLine

/-!
# The form of production lines

`Spells parsed line` says how a production line is spelled: a nonterminal, an arrow
and one or more alternatives, with blanks before each of these parts, between the
alternatives and at the end.  The reader takes a line part by part, and every part
is read in the same way (`Reads`): either what is left of the line has the form
that it should have, for one outcome only, or there is a place up to which it could
be the beginning of such a text, but the character there, or the end, does not
fit (`StopsBefore`).  Both pass from the characters behind some part to those with
the part before them, so they hold of whole lines (`reads_readLine`).

A blank never begins a part, and this is what makes the reader, which takes all the
blanks that it finds, right: no other way to divide a line can come out
(`afterBlanks_iff`).  Blanks behind an alternative may be followed by another
alternative or by the end of the line; other white space neither separates
alternatives nor stands in them, so the fault lies where it stands.
-/

namespace TableParsing.GrammarText

variable {form form' : ProductionLine → List Char → Prop} {parsed : ProductionLine}
  {line front left characters rest : List Char} {alternatives : List (List Char)} {lhs : Char}

/-! ## The form -/

def IsBlanks (characters : List Char) : Prop := ∀ character ∈ characters, isBlank character = true

/-- One or more alternatives with blanks between them, and blanks or not at the end. -/
inductive IsList : List (List Char) → List Char → Prop
  | last {alternative blanks : List Char} (halternative : IsAlternative alternative)
      (hblanks : IsBlanks blanks) : IsList [alternative] (alternative ++ blanks)
  | more {alternative blanks rest : List Char} {alternatives : List (List Char)}
      (halternative : IsAlternative alternative) (hblanks : IsBlanks blanks) (hsome : blanks ≠ [])
      (hrest : IsList alternatives rest) :
      IsList (alternative :: alternatives) (alternative ++ (blanks ++ rest))

/-- An uppercase letter, an arrow and a list of alternatives, each of them behind blanks or none. -/
inductive Spells : ProductionLine → List Char → Prop
  | intro {before between behind characters : List Char} {lhs : Char} {alternatives : List String}
      (hbefore : IsBlanks before) (hlhs : lhs.isUpper = true) (hbetween : IsBlanks between)
      (hbehind : IsBlanks behind) (h : IsList (alternatives.map String.toList) characters) :
      Spells ⟨lhs, alternatives⟩
        (before ++ lhs :: (between ++ '-' :: '>' :: (behind ++ characters)))

/-! ## Reading by parts -/

/-- The characters can be continued to a text of the form, but not by the first of those that are
left; if none is left, they are no such text themselves. -/
structure StopsBefore (form : ProductionLine → List Char → Prop) (front left : List Char) :
    Prop where
  viable : ∃ rest parsed, form parsed (front ++ rest)
  refused : ∀ rest parsed, rest.head? = left.head? → ¬ form parsed (front ++ rest)

/-- An outcome is right for some characters: they are spelled for it alone, or it gives those that are
left where they stop to fit. -/
inductive Reads (form : ProductionLine → List Char → Prop) (characters : List Char) :
    Except (List Char) ProductionLine → Prop
  | ok {parsed : ProductionLine} (h : ∀ other, form other characters ↔ other = parsed) :
      Reads form characters (.ok parsed)
  | error {front left : List Char} (hsplit : characters = front ++ left)
      (h : StopsBefore form front left) : Reads form characters (.error left)

/-- Characters stop to fit before one with which no continuation begins. -/
theorem StopsBefore.of_fits (fits : Char → Bool)
    (hviable : ∃ rest parsed, form parsed (front ++ rest))
    (hfits : ∀ rest parsed, form parsed (front ++ rest) →
      ∃ first others, rest = first :: others ∧ fits first = true)
    (hleft : ∀ next ∈ left.head?, fits next = false) : StopsBefore form front left := by
  refine ⟨hviable, fun rest parsed hhead hspelled => ?_⟩
  obtain ⟨first, others, rfl, hfirst⟩ := hfits rest parsed hspelled
  rw [hleft first hhead.symm] at hfirst
  cases hfirst

/-- The part of a text with its opening before it. -/
theorem Reads.behind (opening : List Char) {outcome : Except (List Char) ProductionLine}
    (hform : ∀ parsed characters, form' parsed (opening ++ characters) ↔ form parsed characters)
    (h : Reads form characters outcome) : Reads form' (opening ++ characters) outcome := by
  cases h with
  | ok h => exact .ok fun other => (hform other _).trans (h other)
  | @error front left hsplit h =>
      have hopened : opening ++ characters = (opening ++ front) ++ left := by
        rw [hsplit, List.append_assoc]
      refine .error hopened ⟨?_, fun rest parsed hhead hspelled => ?_⟩
      · obtain ⟨rest, parsed, hspelled⟩ := h.viable
        exact ⟨rest, parsed, by rwa [List.append_assoc, hform]⟩
      · rw [List.append_assoc, hform] at hspelled
        exact h.refused rest parsed hhead hspelled

/-- A text that begins with a character that passes a test; what may follow depends on the character. -/
def StartsWith (test : Char → Bool) (rest : Char → ProductionLine → List Char → Prop)
    (parsed : ProductionLine) (characters : List Char) : Prop :=
  ∃ first others, characters = first :: others ∧ test first = true ∧ rest first parsed others

/-- A first character is taken, and then what follows is read. -/
theorem Reads.takeChar {test : Char → Bool} {rest : Char → ProductionLine → List Char → Prop}
    {next : Char × List Char → Except (List Char) ProductionLine}
    (hviable : ∃ characters parsed, StartsWith test rest parsed characters)
    (hnext : ∀ first others, Reads (rest first) others (next (first, others)))
    (characters : List Char) :
    Reads (StartsWith test rest) characters ((GrammarText.takeChar test characters).bind next) := by
  have hstops : ∀ left, (∀ next ∈ left.head?, test next = false) →
      StopsBefore (StartsWith test rest) [] left :=
    fun left => .of_fits test hviable fun _ _ ⟨first, others, hsame, hfirst, _⟩ =>
      ⟨first, others, hsame, hfirst⟩
  cases characters with
  | nil => exact .error rfl (hstops [] (by simp))
  | cons first others =>
      rw [GrammarText.takeChar]
      by_cases hpasses : test first = true
      · rw [if_pos hpasses]
        exact .behind [first] (fun parsed characters => by simp [StartsWith, hpasses])
          (hnext first others)
      · rw [if_neg hpasses]
        exact .error rfl (hstops _ (by simpa using hpasses))

/-! ## Blanks before a part -/

/-- A text of the form behind blanks. -/
def AfterBlanks (form : ProductionLine → List Char → Prop) (parsed : ProductionLine)
    (characters : List Char) : Prop :=
  ∃ blanks rest, IsBlanks blanks ∧ characters = blanks ++ rest ∧ form parsed rest

/-- No text of the form begins with a blank. -/
def StartsVisibly (form : ProductionLine → List Char → Prop) : Prop :=
  ∀ parsed characters, form parsed characters → skipBlanks characters = characters

theorem skipBlanks_append (h : IsBlanks front) (rest : List Char) :
    skipBlanks (front ++ rest) = skipBlanks rest :=
  List.dropWhile_append_of_pos h

theorem exists_skipBlanks (characters : List Char) :
    ∃ blanks, IsBlanks blanks ∧ characters = blanks ++ skipBlanks characters :=
  ⟨characters.takeWhile isBlank, fun _ hmem => List.mem_takeWhile_imp hmem,
    List.takeWhile_append_dropWhile.symm⟩

theorem skipBlanks_eq_self_iff :
    skipBlanks characters = characters ↔ ∀ next ∈ characters.head?, isBlank next = false := by
  cases characters with
  | nil => simp [skipBlanks]
  | cons first others => simp [skipBlanks, List.dropWhile_eq_self_iff]

theorem afterBlanks_iff (hform : StartsVisibly form) :
    AfterBlanks form parsed characters ↔ form parsed (skipBlanks characters) := by
  constructor
  · rintro ⟨blanks, rest, hblanks, rfl, h⟩
    rwa [skipBlanks_append hblanks, hform parsed rest h]
  · intro h
    obtain ⟨blanks, hblanks, hsame⟩ := exists_skipBlanks characters
    exact ⟨blanks, _, hblanks, hsame, h⟩

theorem startsVisibly_startsWith {test : Char → Bool}
    {rest : Char → ProductionLine → List Char → Prop}
    (h : ∀ first, test first = true → isBlank first = false) :
    StartsVisibly (StartsWith test rest) := by
  rintro parsed characters ⟨first, others, rfl, hfirst, -⟩
  exact skipBlanks_eq_self_iff.mpr (by simpa using h first hfirst)

theorem StopsBefore.afterBlanks (hform : StartsVisibly form) (h : StopsBefore form front left)
    (hnext : skipBlanks (front ++ left) = front ++ left) {blanks : List Char}
    (hblanks : IsBlanks blanks) : StopsBefore (AfterBlanks form) (blanks ++ front) left := by
  refine ⟨?_, fun rest parsed hhead hspelled => ?_⟩
  · obtain ⟨rest, parsed, hspelled⟩ := h.viable
    exact ⟨rest, parsed, blanks, _, hblanks, List.append_assoc .., hspelled⟩
  · -- the same character comes next with the other rest, so no blanks are taken from it either
    have hsame : skipBlanks (front ++ rest) = front ++ rest := by
      rw [skipBlanks_eq_self_iff] at hnext ⊢
      rwa [List.head?_append, hhead, ← List.head?_append]
    rw [List.append_assoc, afterBlanks_iff hform, skipBlanks_append hblanks, hsame] at hspelled
    exact h.refused rest parsed hhead hspelled

/-- What is read behind the blanks is read with them. -/
theorem Reads.afterBlanks {outcome : Except (List Char) ProductionLine}
    (hform : StartsVisibly form) (h : Reads form (skipBlanks characters) outcome) :
    Reads (AfterBlanks form) characters outcome := by
  cases h with
  | ok h => exact .ok fun other => (afterBlanks_iff hform).trans (h other)
  | @error front left hsplit h =>
      obtain ⟨blanks, hblanks, hsame⟩ := exists_skipBlanks characters
      have hnext : skipBlanks (front ++ left) = front ++ left := by
        rw [← hsplit]
        exact List.dropWhile_idempotent isBlank characters
      rw [hsplit, ← List.append_assoc] at hsame
      exact .error hsame (h.afterBlanks hform hnext hblanks)

/-! ## The parts -/

/-- What follows the arrow and its blanks. -/
def FromAlternatives (lhs : Char) (parsed : ProductionLine) (characters : List Char) : Prop :=
  parsed.lhs = lhs ∧ IsList (parsed.alternatives.map String.toList) characters

/-- What follows the first character of the arrow. -/
def FromMark (lhs : Char) : ProductionLine → List Char → Prop :=
  StartsWith (· == '>') fun _ => AfterBlanks (FromAlternatives lhs)

/-- What follows the nonterminal and its blanks. -/
def FromArrow (lhs : Char) : ProductionLine → List Char → Prop :=
  StartsWith (· == '-') fun _ => FromMark lhs

/-- What follows the blanks at the beginning of a line. -/
def FromNonterminal : ProductionLine → List Char → Prop :=
  StartsWith Char.isUpper fun lhs => AfterBlanks (FromArrow lhs)

theorem spells_eq : Spells = AfterBlanks FromNonterminal := by
  ext parsed line
  constructor
  · rintro ⟨hbefore, hlhs, hbetween, hbehind, h⟩
    exact ⟨_, _, hbefore, rfl, _, _, rfl, hlhs, _, _, hbetween, rfl, '-', _, rfl, rfl, '>', _, rfl,
      rfl, _, _, hbehind, rfl, rfl, h⟩
  · rintro ⟨_, _, hbefore, rfl, lhs, _, rfl, hlhs, _, _, hbetween, rfl, dash, _, rfl, hdash, mark, _,
      rfl, hmark, _, _, hbehind, rfl, rfl, h⟩
    obtain rfl : dash = '-' := by simpa using hdash
    obtain rfl : mark = '>' := by simpa using hmark
    exact .intro hbefore hlhs hbetween hbehind h

/-! ## Lists of alternatives -/

theorem isSymbolChar_of_isBlank {character : Char} (h : isBlank character = true) :
    isSymbolChar character = false := by
  rw [← Bool.not_eq_true]
  intro hsymbol
  rw [isBlank_of_isSymbolChar hsymbol] at h
  cases h

theorem IsAlternative.exists_cons {alternative : List Char} (h : IsAlternative alternative) :
    ∃ first others, alternative = first :: others ∧ GrammarText.isSymbolChar first = true := by
  obtain ⟨first, others, rfl⟩ := List.exists_cons_of_ne_nil h.ne_nil
  exact ⟨first, others, rfl, h.isSymbolChar first List.mem_cons_self⟩

theorem IsList.exists_cons (h : IsList alternatives characters) :
    ∃ first others, characters = first :: others ∧ isSymbolChar first = true := by
  cases h with
  | last halternative | more halternative =>
      obtain ⟨first, others, rfl, hfirst⟩ := halternative.exists_cons
      exact ⟨first, _, List.cons_append, hfirst⟩

theorem IsList.ne_nil (h : IsList alternatives characters) : alternatives ≠ [] := by
  cases h with
  | last | more => exact List.cons_ne_nil _ _

theorem IsList.skipBlanks_eq (h : IsList alternatives characters) :
    skipBlanks characters = characters := by
  obtain ⟨first, others, rfl, hfirst⟩ := h.exists_cons
  exact skipBlanks_of_isSymbolChar hfirst others

theorem IsList.isSymbolChar_or_isBlank (h : IsList alternatives characters) :
    ∀ character ∈ characters, isSymbolChar character = true ∨ isBlank character = true := by
  induction h with
  | last halternative hblanks =>
      intro character hmem
      rcases List.mem_append.mp hmem with hmem | hmem
      · exact .inl (halternative.isSymbolChar character hmem)
      · exact .inr (hblanks character hmem)
  | more halternative hblanks _ _ ih =>
      intro character hmem
      rcases List.mem_append.mp hmem with hmem | hmem
      · exact .inl (halternative.isSymbolChar character hmem)
      · rcases List.mem_append.mp hmem with hmem | hmem
        · exact .inr (hblanks character hmem)
        · exact ih character hmem

theorem IsBlanks.isSymbolChar_eq_false {blanks : List Char} (h : IsBlanks blanks) :
    ∀ next ∈ blanks.head?, isSymbolChar next = false :=
  fun next hnext => isSymbolChar_of_isBlank (h next (List.mem_of_mem_head? hnext))

/-- A list is taken as a whole, alternative by alternative. -/
theorem takeAlternatives_of_isList (h : IsList alternatives characters) :
    takeAlternatives characters = (alternatives, []) := by
  induction h with
  | @last alternative blanks halternative hblanks =>
      have hskip : skipBlanks blanks = [] := by
        simpa [skipBlanks] using skipBlanks_append hblanks []
      rw [takeAlternatives_append halternative hblanks.isSymbolChar_eq_false, hskip,
        takeAlternatives]
  | @more alternative blanks rest alternatives halternative hblanks hsome hrest ih =>
      have hnext : ∀ next ∈ (blanks ++ rest).head?, isSymbolChar next = false := by
        rw [List.head?_append_of_ne_nil _ hsome]
        exact hblanks.isSymbolChar_eq_false
      rw [takeAlternatives_append halternative hnext, skipBlanks_append hblanks, hrest.skipBlanks_eq,
        ih]

theorem IsList.unique {other : List (List Char)} (h : IsList alternatives characters)
    (hother : IsList other characters) : other = alternatives := by
  have hsame := takeAlternatives_of_isList hother
  rw [takeAlternatives_of_isList h] at hsame
  exact (congrArg Prod.fst hsame).symm

/-- What is taken for alternatives is none or a list, and neither an alternative nor a blank comes
behind a list. -/
theorem exists_taken (characters : List Char) :
    (∀ next ∈ (takeAlternatives characters).2.head?, isSymbolChar next = false) ∧
      (takeAlternatives characters = ([], characters) ∨
        ∃ front, characters = front ++ (takeAlternatives characters).2 ∧
          IsList (takeAlternatives characters).1 front ∧
          ∀ next ∈ (takeAlternatives characters).2.head?, isBlank next = false) := by
  fun_induction takeAlternatives characters with
  | case1 => exact ⟨by simp, .inl rfl⟩
  | case3 character rest hcharacter =>
      refine ⟨fun next hnext => ?_, .inl rfl⟩
      cases hnext
      simpa using hcharacter
  | case2 character rest hcharacter following ih =>
      refine ⟨ih.1, .inr ?_⟩
      have halternative := isAlternative_takeWhile hcharacter rest
      obtain ⟨blanks, hblanks, htail⟩ := exists_skipBlanks (rest.dropWhile isSymbolChar)
      rcases ih.2 with hnone | ⟨front, hfront, hlist, hleft⟩
      · have hfollowing : following = ([], skipBlanks (rest.dropWhile isSymbolChar)) := hnone
        rw [hfollowing]
        refine ⟨(character :: rest.takeWhile isSymbolChar) ++ blanks, ?_,
          .last halternative hblanks, ?_⟩
        · rw [List.append_assoc, ← htail, List.cons_append, List.takeWhile_append_dropWhile]
        · exact skipBlanks_eq_self_iff.mp (List.dropWhile_idempotent isBlank _)
      · -- the first alternative goes as far as it can, so blanks must stand before the next one
        have hsome : blanks ≠ [] := by
          rintro rfl
          obtain ⟨first, others, rfl, hfirst⟩ := hlist.exists_cons
          have hstops := List.head?_dropWhile_not isSymbolChar rest
          rw [htail, List.nil_append, hfront] at hstops
          simp [hfirst] at hstops
        refine ⟨(character :: rest.takeWhile isSymbolChar) ++ (blanks ++ front), ?_,
          .more halternative hblanks hsome hlist, hleft⟩
        rw [List.append_assoc, List.append_assoc, ← hfront, ← htail, List.cons_append,
          List.takeWhile_append_dropWhile]

private theorem map_toList_ofList (alternatives : List (List Char)) :
    (alternatives.map String.ofList).map String.toList = alternatives := by
  simp [List.map_map, Function.comp_def]

theorem IsList.fromAlternatives_iff (h : IsList alternatives characters) :
    FromAlternatives lhs parsed characters ↔ parsed = ⟨lhs, alternatives.map String.ofList⟩ := by
  constructor
  · rintro ⟨rfl, hparsed⟩
    rw [← h.unique hparsed]
    simp [List.map_map, Function.comp_def]
  · rintro rfl
    exact ⟨rfl, by rwa [map_toList_ofList]⟩

/-- A list cannot be continued by what is neither a blank nor a part of an alternative. -/
theorem IsList.stopsBefore {next : Char} (h : IsList alternatives front)
    (hsymbol : isSymbolChar next = false) (hblank : isBlank next = false) (behind : List Char) :
    StopsBefore (FromAlternatives lhs) front (next :: behind) := by
  refine ⟨⟨[], ⟨lhs, alternatives.map String.ofList⟩, ?_⟩, fun rest parsed hhead hspelled => ?_⟩
  · rw [List.append_nil]
    exact h.fromAlternatives_iff.mpr rfl
  · have hmem : next ∈ front ++ rest := List.mem_append_right _ (List.mem_of_mem_head? hhead)
    rcases hspelled.2.isSymbolChar_or_isBlank next hmem with hown | hown
    · rw [hsymbol] at hown
      cases hown
    · rw [hblank] at hown
      cases hown

/-! ## Reading a line -/

private theorem fromAlternatives_single (lhs : Char) : FromAlternatives lhs ⟨lhs, ["a"]⟩ ['a'] := by
  have hletter : IsAlternative ['a'] := by
    refine ⟨List.cons_ne_nil _ _, List.forall_mem_singleton.mpr ?_⟩
    exact isSymbolChar_of_visible (by decide) (by decide)
  exact ⟨rfl, .last hletter (List.forall_mem_nil _)⟩

theorem AfterBlanks.of_form (h : form parsed characters) : AfterBlanks form parsed characters :=
  ⟨[], characters, List.forall_mem_nil _, rfl, h⟩

private theorem fromMark_single (lhs : Char) : FromMark lhs ⟨lhs, ["a"]⟩ ['>', 'a'] :=
  ⟨'>', _, rfl, rfl, .of_form (fromAlternatives_single lhs)⟩

private theorem fromArrow_single (lhs : Char) : FromArrow lhs ⟨lhs, ["a"]⟩ ['-', '>', 'a'] :=
  ⟨'-', _, rfl, rfl, fromMark_single lhs⟩

private theorem fromNonterminal_single : FromNonterminal ⟨'A', ["a"]⟩ ['A', '-', '>', 'a'] :=
  ⟨'A', _, rfl, rfl, .of_form (fromArrow_single 'A')⟩

theorem reads_readAlternatives (lhs : Char) (rest : List Char) :
    Reads (AfterBlanks (FromAlternatives lhs)) rest (readAlternatives lhs rest) := by
  apply Reads.afterBlanks fun parsed characters h => h.2.skipBlanks_eq
  obtain ⟨hleft, htaken⟩ := exists_taken (skipBlanks rest)
  unfold readAlternatives
  generalize skipBlanks rest = characters at hleft htaken ⊢
  generalize takeAlternatives characters = taken at hleft htaken ⊢
  obtain ⟨alternatives, left⟩ := taken
  rcases htaken with hnone | ⟨front, rfl, hlist, hblank⟩
  · cases hnone
    exact .error (List.nil_append characters).symm (.of_fits isSymbolChar
      ⟨_, _, fromAlternatives_single lhs⟩ (fun _ _ hspelled => hspelled.2.exists_cons) hleft)
  · obtain ⟨alternative, others, rfl⟩ := List.exists_cons_of_ne_nil hlist.ne_nil
    cases left with
    | nil =>
        rw [List.append_nil]
        exact .ok fun other => hlist.fromAlternatives_iff
    | cons next behind =>
        exact .error rfl (hlist.stopsBefore (hleft next rfl) (hblank next rfl) behind)

theorem reads_readArrow (lhs : Char) (rest : List Char) :
    Reads (AfterBlanks (FromArrow lhs)) rest (readArrow lhs rest) := by
  have hvisible : StartsVisibly (FromArrow lhs) := startsVisibly_startsWith fun first hfirst => by
    obtain rfl : first = '-' := by simpa using hfirst
    rfl
  refine .afterBlanks hvisible (.takeChar ⟨_, _, fromArrow_single lhs⟩ (fun _ others => ?_) _)
  exact .takeChar ⟨_, _, fromMark_single lhs⟩ (fun _ => reads_readAlternatives lhs) others

theorem reads_readLine (line : List Char) : Reads Spells line (readLine line) := by
  rw [spells_eq]
  have hvisible : StartsVisibly FromNonterminal := startsVisibly_startsWith fun first hfirst =>
    isBlank_of_isSymbolChar (isSymbolChar_of_isUpper hfirst)
  exact .afterBlanks hvisible (.takeChar ⟨_, _, fromNonterminal_single⟩ reads_readArrow _)

/-! ## Faults -/

theorem readLine_eq_ok_iff : readLine line = .ok parsed ↔ Spells parsed line := by
  have hreads := reads_readLine line
  generalize readLine line = outcome at hreads ⊢
  cases hreads with
  | ok h => rw [h parsed, Except.ok.injEq, eq_comm]
  | @error front left hsplit h =>
      refine ⟨nofun, fun hspelled => ?_⟩
      rw [hsplit] at hspelled
      exact absurd hspelled (h.refused left parsed rfl)

/-- A production line has no other white space than blanks. -/
theorem Spells.isSymbolChar_or_isBlank (h : Spells parsed line) :
    ∀ character ∈ line, isSymbolChar character = true ∨ isBlank character = true := by
  obtain ⟨hbefore, hlhs, hbetween, hbehind, hlist⟩ := h
  intro character hmem
  simp only [List.mem_append, List.mem_cons] at hmem
  rcases hmem with hmem | rfl | hmem | rfl | rfl | hmem | hmem
  · exact .inr (hbefore character hmem)
  · exact .inl (isSymbolChar_of_isUpper hlhs)
  · exact .inr (hbetween character hmem)
  · exact .inl (by decide)
  · exact .inl (by decide)
  · exact .inr (hbehind character hmem)
  · exact hlist.isSymbolChar_or_isBlank character hmem

/-- Some continuation makes the characters a production line. -/
def Extendable (front : List Char) : Prop := ∃ rest parsed, Spells parsed (front ++ rest)

/-- The longest beginning of a line that can be continued to a production line. -/
structure FitsUpTo (front line : List Char) : Prop where
  isPrefix : front <+: line
  extendable : Extendable front
  longest : ∀ other, other <+: line → Extendable other → other.length ≤ front.length

theorem StopsBefore.fitsUpTo (h : StopsBefore Spells front left) :
    FitsUpTo front (front ++ left) := by
  refine ⟨List.prefix_append _ _, h.viable, fun other hother ⟨rest, parsed, hspelled⟩ => ?_⟩
  by_contra hlonger
  -- a longer beginning goes on with the character that does not fit
  have hfront : front <+: other :=
    List.prefix_of_prefix_length_le (List.prefix_append front left) hother (by omega)
  obtain ⟨tail, rfl⟩ := hfront
  have htail : tail <+: left := (List.prefix_append_right_inj front).mp hother
  obtain ⟨next, others, rfl⟩ : ∃ next others, tail = next :: others := by
    cases tail with
    | nil => simp at hlonger
    | cons next others => exact ⟨next, others, rfl⟩
  obtain ⟨behind, rfl⟩ := htail
  rw [List.append_assoc] at hspelled
  exact h.refused (next :: others ++ rest) parsed rfl hspelled

/-- Where reading a line stops, it stops to fit. -/
theorem fitsUpTo_of_readLine_error (h : readLine (front ++ left) = .error left) :
    FitsUpTo front (front ++ left) := by
  have hreads := reads_readLine (front ++ left)
  rw [h] at hreads
  cases hreads with
  | @error other _ hsplit hstops =>
      obtain rfl : front = other := List.append_cancel_right hsplit
      exact hstops.fitsUpTo

end TableParsing.GrammarText
