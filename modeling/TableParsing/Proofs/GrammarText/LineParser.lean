import TableParsing.GrammarText.Reader

/-!
# What the parser of production lines does

A production line is parsed with combinators, and of these nothing is known but what
their library says.  This is enough to tell what the parser does without combinators
(`readLine`): it passes over all blanks that it finds, an alternative is as long as it
can be, and alternatives are taken as long as there is one behind the blanks.

Two facts carry the proof.  A repeated single character is what `takeWhile` takes
(`repeats_satisfy`).  Behind an alternative stands no character that could be part of
it, so that the alternatives that follow need blanks before them (`exists_separated`).
-/

namespace TableParsing

/-- A reply without whether it is committed. -/
def Reply.outcome {ε α : Type} : Reply ε α → Except ε (α × List Char)
  | ok _ value rest => .ok (value, rest)
  | error _ fault => .error fault

namespace Reply

variable {ε α β : Type} {reply : Reply ε α}

theorem outcome_map (change : α → β) :
    (reply.map change).outcome = reply.outcome.map fun taken => (change taken.1, taken.2) := by
  cases reply <;> rfl

@[simp] theorem outcome_after (committed : Bool) :
    (reply.after committed).outcome = reply.outcome := by
  cases reply <;> rfl

theorem outcome_andThen (next : α → List Char → Reply ε β) :
    (reply.andThen next).outcome =
      reply.outcome.bind fun taken => (next taken.1 taken.2).outcome := by
  cases reply with
  | ok => exact outcome_after _
  | error => rfl

theorem exists_of_outcome_eq_ok {value : α} {rest : List Char}
    (h : reply.outcome = .ok (value, rest)) : ∃ committed, reply = .ok committed value rest := by
  cases reply with
  | ok committed =>
      cases h
      exact ⟨committed, rfl⟩
  | error => cases h

theorem exists_of_outcome_eq_error {fault : ε} (h : reply.outcome = .error fault) :
    ∃ committed, reply = .error committed fault := by
  cases reply with
  | ok => cases h
  | error committed =>
      cases h
      exact ⟨committed, rfl⟩

end Reply

namespace GrammarText

/-! ## Without combinators -/

/-- The characters behind the blanks at the beginning. -/
def skipBlanks (characters : List Char) : List Char := characters.dropWhile isBlank

theorem length_skipBlanks_le (characters : List Char) :
    (skipBlanks characters).length ≤ characters.length :=
  (List.dropWhile_sublist _).length_le

/-- The alternatives at the beginning of some characters, with the characters behind them and their
blanks. -/
def takeAlternatives (characters : List Char) : List (List Char) × List Char :=
  match characters with
  | [] => ([], [])
  | character :: rest =>
    if isSymbolChar character then
      let following := takeAlternatives (skipBlanks (rest.dropWhile isSymbolChar))
      ((character :: rest.takeWhile isSymbolChar) :: following.1, following.2)
    else
      ([], character :: rest)
termination_by characters.length
decreasing_by
  have := length_skipBlanks_le (rest.dropWhile isSymbolChar)
  have := (List.dropWhile_sublist isSymbolChar (l := rest)).length_le
  simp only [List.length_cons]
  omega

/-- Takes one character that passes a test; an error is given by the characters at its place. -/
def takeChar (test : Char → Bool) : List Char → Except (List Char) (Char × List Char)
  | [] => .error []
  | character :: rest =>
    if test character then .ok (character, rest) else .error (character :: rest)

/-- Reads the alternatives of a line from the characters behind the arrow. -/
def readAlternatives (lhs : Char) (rest : List Char) : Except (List Char) ProductionLine :=
  match takeAlternatives (skipBlanks rest) with
  | ([], left) => .error left
  | (alternatives, []) => .ok ⟨lhs, alternatives.map String.ofList⟩
  | (_, left) => .error left

/-- Reads the arrow of a line from the characters behind the nonterminal. -/
def readArrow (lhs : Char) (rest : List Char) : Except (List Char) ProductionLine :=
  (takeChar (· == '-') (skipBlanks rest)).bind fun dash =>
    (takeChar (· == '>') dash.2).bind fun mark => readAlternatives lhs mark.2

/-- Reads a production line that has no line end. -/
def readLine (line : List Char) : Except (List Char) ProductionLine :=
  (takeChar Char.isUpper (skipBlanks line)).bind fun letter => readArrow letter.1 letter.2

private theorem exists_cons_or_head? (test : Char → Bool) (input : List Char) :
    (∃ character rest, input = character :: rest ∧ test character = true) ∨
      ∀ next ∈ input.head?, test next = false := by
  cases input with
  | nil => exact .inr (by simp)
  | cons character rest =>
      cases hpasses : test character with
      | true => exact .inl ⟨character, rest, rfl, hpasses⟩
      | false => exact .inr (by simpa using hpasses)

private theorem head?_dropWhile (test : Char → Bool) (input : List Char) :
    ∀ next ∈ (input.dropWhile test).head?, test next = false := by
  intro next hnext
  have hfails := List.head?_dropWhile_not test input
  rw [hnext] at hfails
  simpa using hfails

theorem takeAlternatives_of_head? {input : List Char}
    (hnone : ∀ next ∈ input.head?, isSymbolChar next = false) :
    takeAlternatives input = ([], input) := by
  cases input with
  | nil => rw [takeAlternatives]
  | cons next rest => rw [takeAlternatives, if_neg (Bool.eq_false_iff.mp (hnone next rfl))]

theorem takeAlternatives_cons {character : Char} (h : isSymbolChar character = true)
    (rest : List Char) : takeAlternatives (character :: rest) =
      ((character :: rest.takeWhile isSymbolChar) ::
        (takeAlternatives (skipBlanks (rest.dropWhile isSymbolChar))).1,
        (takeAlternatives (skipBlanks (rest.dropWhile isSymbolChar))).2) := by
  rw [takeAlternatives, if_pos h]

/-! ## Places of errors -/

/-- What goes wrong at a character or behind it leaves a part of the characters. -/
private theorem suffix_of_takeChar_bind {α : Type} {test : Char → Bool}
    {next : Char × List Char → Except (List Char) α} {input left : List Char}
    (hnext : ∀ taken, next taken = .error left → left <:+ taken.2)
    (h : (takeChar test input).bind next = .error left) : left <:+ input := by
  cases input with
  | nil =>
      cases h
      exact List.suffix_refl _
  | cons character rest =>
      rw [takeChar] at h
      by_cases hpasses : test character = true
      · rw [if_pos hpasses] at h
        exact (hnext _ h).trans (List.suffix_cons _ _)
      · rw [if_neg hpasses] at h
        cases h
        exact List.suffix_refl _

private theorem skipBlanks_suffix (characters : List Char) : skipBlanks characters <:+ characters :=
  List.dropWhile_suffix _

private theorem takeAlternatives_suffix (characters : List Char) :
    (takeAlternatives characters).2 <:+ characters := by
  fun_induction takeAlternatives characters with
  | case1 | case3 => exact List.suffix_refl _
  | case2 character rest hcharacter following ih =>
      exact ((ih.trans (skipBlanks_suffix _)).trans (List.dropWhile_suffix _)).trans
        (List.suffix_cons character rest)

private theorem readAlternatives_error_suffix {lhs : Char} {rest left : List Char}
    (h : readAlternatives lhs rest = .error left) : left <:+ rest := by
  have hsuffix := (takeAlternatives_suffix (skipBlanks rest)).trans (skipBlanks_suffix rest)
  unfold readAlternatives at h
  split at h
  · rename_i hsame
    cases h
    rwa [hsame] at hsuffix
  · cases h
  · rename_i hsame
    cases h
    rwa [hsame] at hsuffix

private theorem readArrow_error_suffix {lhs : Char} {rest left : List Char}
    (h : readArrow lhs rest = .error left) : left <:+ rest := by
  refine List.IsSuffix.trans ?_ (skipBlanks_suffix rest)
  refine suffix_of_takeChar_bind (fun dash hdash => ?_) h
  exact suffix_of_takeChar_bind (fun mark => readAlternatives_error_suffix) hdash

theorem readLine_error_suffix {line left : List Char} (h : readLine line = .error left) :
    left <:+ line :=
  (suffix_of_takeChar_bind (fun _ => readArrow_error_suffix) h).trans (skipBlanks_suffix line)

/-! ## With combinators -/

section Documented

variable {library : Combinators} (h : library.Documented)
include h

theorem outcome_satisfy (test : Char → Bool) (input : List Char) :
    (library.reply (library.satisfy test) input).outcome = takeChar test input := by
  cases input with
  | nil =>
      have hend : ∀ character ∈ ([] : List Char).head?, test character = false := by simp
      rw [h.satisfy_error hend]
      rfl
  | cons character rest =>
      by_cases hpasses : test character = true
      · rw [h.satisfy_cons hpasses, takeChar, if_pos hpasses]
        rfl
      · have hother : ∀ next ∈ (character :: rest).head?, test next = false := by simpa using hpasses
        rw [h.satisfy_error hother, takeChar, if_neg hpasses]
        rfl

/-- A character that is repeated is taken as often as it stands there. -/
theorem repeats_satisfy (test : Char → Bool) (input : List Char) :
    ∃ committed, Repeats (library.reply (library.satisfy test)) input
      (.ok committed (input.takeWhile test) (input.dropWhile test)) := by
  induction input with
  | nil => exact ⟨false, .stop (h.satisfy_error (by simp))⟩
  | cons character rest ih =>
      by_cases hpasses : test character = true
      · obtain ⟨committed, hrest⟩ := ih
        rw [List.takeWhile_cons_of_pos hpasses, List.dropWhile_cons_of_pos hpasses]
        exact ⟨_, .more (h.satisfy_cons hpasses rest) (Nat.lt_succ_self _) hrest⟩
      · rw [List.takeWhile_cons_of_neg hpasses, List.dropWhile_cons_of_neg hpasses]
        exact ⟨_, .stop (h.satisfy_error (by simpa using hpasses))⟩

theorem outcome_blanks_then {α : Type} (parser : library.Parser α) (input : List Char) :
    (library.reply (library.skipThen (blanks library) parser) input).outcome =
      (library.reply parser (skipBlanks input)).outcome := by
  obtain ⟨committed, hblanks⟩ := repeats_satisfy h isBlank input
  rw [h.skipThen, blanks, blank, h.skipMany hblanks]
  exact Reply.outcome_after committed

theorem outcome_nonterminal (input : List Char) :
    (library.reply (nonterminal library) input).outcome = takeChar Char.isUpper input := by
  rw [nonterminal, h.expected, outcome_satisfy h]

theorem outcome_arrow (input : List Char) :
    (library.reply (arrow library) input).outcome =
      (takeChar (· == '-') input).bind fun dash =>
        (takeChar (· == '>') dash.2).map fun mark => ((), mark.2) := by
  rw [arrow, h.expected, h.map, h.pair, Reply.outcome_map, Reply.outcome_andThen, outcome_satisfy h]
  simp only [Reply.outcome_map, outcome_satisfy h]
  cases takeChar (· == '-') input with
  | error => rfl
  | ok dash =>
      show ((takeChar (· == '>') dash.2).map _).map _ = (takeChar (· == '>') dash.2).map _
      cases takeChar (· == '>') dash.2 <;> rfl

/-! ## Alternatives -/

theorem exists_reply_alternative {character : Char} (hcharacter : isSymbolChar character = true)
    (rest : List Char) : ∃ committed, library.reply (alternative library) (character :: rest) =
      .ok committed (String.ofList (character :: rest.takeWhile isSymbolChar))
        (rest.dropWhile isSymbolChar) := by
  obtain ⟨committed, hlater⟩ := repeats_satisfy h isSymbolChar rest
  rw [alternative, h.expected, h.many1 (h.satisfy_cons hcharacter rest) hlater]
  exact ⟨_, rfl⟩

theorem reply_alternative_error {input : List Char}
    (hnone : ∀ next ∈ input.head?, isSymbolChar next = false) :
    library.reply (alternative library) input = .error false input := by
  rw [alternative, h.expected, h.many1_error (h.satisfy_error hnone)]

theorem reply_separator_error {input : List Char}
    (hnone : ∀ next ∈ input.head?, isBlank next = false) :
    library.reply (library.skipMany1 (blank library)) input = .error false input :=
  h.skipMany1_error (h.satisfy_error hnone)

theorem exists_reply_separator {character : Char} (hcharacter : isBlank character = true)
    (rest : List Char) :
    ∃ committed, library.reply (library.skipMany1 (blank library)) (character :: rest) =
      .ok committed () (skipBlanks (character :: rest)) := by
  obtain ⟨committed, hlater⟩ := repeats_satisfy h isBlank rest
  rw [blank, h.skipMany1 (h.satisfy_cons hcharacter rest) hlater, skipBlanks,
    List.dropWhile_cons_of_pos hcharacter]
  exact ⟨_, rfl⟩

/-- Behind an alternative others are taken, each of them behind blanks. -/
theorem exists_separated (input : List Char)
    (hnone : ∀ next ∈ input.head?, isSymbolChar next = false) :
    ∃ later, Separated (library.reply (alternative library))
        (library.reply (library.skipMany1 (blank library))) input later ∧
      later.outcome = .ok ((takeAlternatives (skipBlanks input)).1.map String.ofList,
        (takeAlternatives (skipBlanks input)).2) := by
  induction hlength : input.length using Nat.strongRecOn generalizing input with
  | ind length ih =>
      rcases exists_cons_or_head? isBlank input with ⟨first, others, rfl, hblank⟩ | hvisible
      · obtain ⟨committed, hseparator⟩ := exists_reply_separator h hblank others
        have hshorter : (skipBlanks (first :: others)).length ≤ others.length := by
          rw [skipBlanks, List.dropWhile_cons_of_pos hblank]
          exact (List.dropWhile_sublist _).length_le
        rcases exists_cons_or_head? isSymbolChar (skipBlanks (first :: others)) with
          ⟨character, rest, hbehind, hcharacter⟩ | hend
        · -- there is another alternative
          obtain ⟨own, hitem⟩ := exists_reply_alternative h hcharacter rest
          have hless : (rest.dropWhile isSymbolChar).length < (first :: others).length := by
            have hle := (List.dropWhile_sublist isSymbolChar (l := rest)).length_le
            rw [hbehind, List.length_cons] at hshorter
            rw [List.length_cons]
            omega
          obtain ⟨later, hlater, houtcome⟩ :=
            ih _ (hlength ▸ hless) _ (head?_dropWhile isSymbolChar rest) rfl
          refine ⟨_, .more hseparator (hbehind ▸ hitem) hless hlater, ?_⟩
          rw [Reply.outcome_after, Reply.outcome_map, houtcome, hbehind,
            takeAlternatives_cons hcharacter]
          rfl
        · refine ⟨_, .closed hseparator (reply_alternative_error h hend), ?_⟩
          rw [takeAlternatives_of_head? hend]
          rfl
      · refine ⟨_, .last (reply_separator_error h hvisible), ?_⟩
        have hsame : skipBlanks input = input := by
          cases input with
          | nil => rfl
          | cons first others =>
              exact List.dropWhile_cons_of_neg (Bool.eq_false_iff.mp (hvisible first rfl))
        rw [hsame, takeAlternatives_of_head? hnone]
        rfl

theorem outcome_alternatives (input : List Char) :
    (library.reply (library.sepEndBy1 (alternative library) (library.skipMany1 (blank library)))
        input).outcome =
      match takeAlternatives input with
      | ([], left) => .error left
      | (alternatives, left) => .ok (alternatives.map String.ofList, left) := by
  rcases exists_cons_or_head? isSymbolChar input with ⟨character, rest, rfl, hcharacter⟩ | hnone
  · obtain ⟨committed, hitem⟩ := exists_reply_alternative h hcharacter rest
    obtain ⟨later, hlater, houtcome⟩ := exists_separated h _ (head?_dropWhile isSymbolChar rest)
    rw [h.sepEndBy1 hitem hlater, Reply.outcome_after, Reply.outcome_map, houtcome,
      takeAlternatives_cons hcharacter]
    rfl
  · rw [h.sepEndBy1_error (reply_alternative_error h hnone), takeAlternatives_of_head? hnone]
    rfl

theorem outcome_eof (input : List Char) :
    (library.reply library.eof input).outcome =
      match input with
      | [] => .ok ((), [])
      | character :: rest => .error (character :: rest) := by
  cases input with
  | nil =>
      rw [h.eof_nil]
      rfl
  | cons character rest =>
      rw [h.eof_cons]
      rfl

/-! ## Lines -/

theorem outcome_productionLine (line : List Char) :
    (library.reply (productionLine library) line).outcome =
      (readLine line).map fun parsed => (parsed, []) := by
  rw [productionLine, h.map, h.quadruple]
  simp only [Reply.outcome_map, Reply.outcome_andThen, outcome_blanks_then h,
    outcome_nonterminal h, outcome_arrow h, outcome_alternatives h, outcome_eof h, readLine]
  cases takeChar Char.isUpper (skipBlanks line) with
  | error => rfl
  | ok letter =>
      simp only [Except.bind, readArrow]
      cases takeChar (· == '-') (skipBlanks letter.2) with
      | error => rfl
      | ok dash =>
          simp only
          cases takeChar (· == '>') dash.2 with
          | error => rfl
          | ok mark =>
              simp only [Except.map, readAlternatives]
              rcases takeAlternatives (skipBlanks mark.2) with
                ⟨_ | ⟨alternative, others⟩, _ | ⟨next, left⟩⟩ <;> rfl

/-- A line that can be read gives its productions. -/
theorem productionsOfLine_of_readLine {line : String} {parsed : ProductionLine}
    (hread : readLine (bodyOf line) = .ok parsed) (number : Nat) :
    productionsOfLine library line number = parsed.productions.mapError (.production number) := by
  have houtcome := outcome_productionLine h (bodyOf line)
  rw [hread] at houtcome
  obtain ⟨committed, hreply⟩ := Reply.exists_of_outcome_eq_ok houtcome
  simp only [productionsOfLine, h.parse_ok hreply]
  cases parsed.productions <;> rfl

/-- Another line is malformed, and the position of the error is that of its place. -/
theorem exists_productionsOfLine_of_readLine_error {line : String} {left : List Char}
    (hread : readLine (bodyOf line) = .error left) (number : Nat) :
    ∃ front details, bodyOf line = front ++ left ∧ productionsOfLine library line number =
      .error (.malformed number (Text.trimEnd
        ("Parse error at " ++ (Position.behind front).text ++ "\n" ++ details))) := by
  obtain ⟨front, hfront⟩ := readLine_error_suffix hread
  have houtcome := outcome_productionLine h (bodyOf line)
  rw [hread, ← hfront] at houtcome
  obtain ⟨committed, hreply⟩ := Reply.exists_of_outcome_eq_error houtcome
  obtain ⟨details, hparse⟩ := h.parse_error hreply
  refine ⟨front, details, hfront.symm, ?_⟩
  rw [hfront] at hparse
  simp only [productionsOfLine, hparse]

end Documented

end GrammarText

end TableParsing
