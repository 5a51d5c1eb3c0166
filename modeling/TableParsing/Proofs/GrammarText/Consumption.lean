import TableParsing.Combinators.Standard
import TableParsing.GrammarText.Reader
import TableParsing.Proofs.InputLines

/-!
# What reading a grammar consumes

Reading a grammar takes whole lines from an input: blank lines and the count line
(`Head`), and then production lines (`Gives`) up to the announced number of them, or up
to the first one with an error.  Either reading stops there, whatever follows (`Stops`),
or it has consumed the whole input and found a line missing (`Lacks`).

`readGrammar_consumes` says so for the bytes of an input.  The bytes of the remaining
lines are left, an error that tells the number of a line tells that of the last line
consumed, and if reading has stopped behind a line feed, more input changes nothing but
what is left.
-/

namespace TableParsing.GrammarText

open Text (Line)

/-! ## What lines are read as -/

/-- A line of white space. -/
inductive IsBlankLine : Line → Prop
  | text {content : String} (h : (Text.trim content).isEmpty = true) : IsBlankLine (.text content)

/-- What a line that is not blank is as a count line. -/
inductive CountLine : Line → Except ReaderError Nat → Prop
  | value {content : String} {value : Nat} (hvisible : (Text.trim content).isEmpty = false)
      (hvalue : count? (Text.trim content).toList = some value) :
      CountLine (.text content) (.ok value)
  | invalid {content : String} (hvisible : (Text.trim content).isEmpty = false)
      (hvalue : count? (Text.trim content).toList = none) :
      CountLine (.text content) (.error (.invalidCount (Text.trim content)))
  | undecodable {bytes : List UInt8} : CountLine (.undecodable bytes) (.error .undecodable)

/-- Blank lines with the count line behind them. -/
inductive Head : List Line → Except ReaderError Nat → Prop
  | line {line : Line} {result : Except ReaderError Nat} (h : CountLine line result) :
      Head [line] result
  | blank {blank : Line} {head : List Line} {result : Except ReaderError Nat}
      (hblank : IsBlankLine blank) (hhead : Head head result) : Head (blank :: head) result

variable (library : Combinators)

/-- The productions of a line with a number. -/
def lineProductions (number : Nat) : Line → Except ReaderError (List Production)
  | .text content => productionsOfLine library content number
  | .undecodable _ => .error .undecodable

/-- The lines behind the line `line` give productions, line by line. -/
inductive Gives : (line : Nat) → List Line → List Production → Prop
  | nil {line : Nat} : Gives line [] []
  | cons {line : Nat} {next : Line} {rest : List Line} {own more : List Production}
      (hnext : lineProductions library (line + 1) next = .ok own) (hrest : Gives (line + 1) rest more) :
      Gives line (next :: rest) (own ++ more)

/-- The lines that are consumed when reading stops by itself, with the outcome. -/
inductive Stops : List Line → Except ReaderError Grammar → Prop
  | count {head : List Line} {error : ReaderError} (hhead : Head head (.error error)) :
      Stops head (.error error)
  | line {head lines : List Line} {count : Nat} {productions : List Production} {last : Line}
      {error : ReaderError} (hhead : Head head (.ok count))
      (hlines : Gives library head.length lines productions) (hcount : lines.length < count)
      (hlast : lineProductions library (head.length + lines.length + 1) last = .error error) :
      Stops (head ++ lines ++ [last]) (.error error)
  | all {head lines : List Line} {productions : List Production}
      (hhead : Head head (.ok lines.length)) (hlines : Gives library head.length lines productions) :
      Stops (head ++ lines) ((Grammar.checkDefault productions).mapError .grammar)

/-- The lines of an input that ends before reading stops, with the error. -/
inductive Lacks : List Line → ReaderError → Prop
  | count {blanks : List Line} (hblanks : ∀ blank ∈ blanks, IsBlankLine blank) :
      Lacks blanks .missingCount
  | lines {head lines : List Line} {count : Nat} {productions : List Production}
      (hhead : Head head (.ok count)) (hlines : Gives library head.length lines productions)
      (hcount : lines.length < count) : Lacks (head ++ lines) (.missingLines count lines.length)

variable {library}

/-- The number of a line that an error tells. -/
def ReaderError.line? : ReaderError → Option Nat
  | .malformed line _ => some line
  | .production line _ => some line
  | _ => none

/-! ## The count -/

theorem readCount_of_head {head : List Line} {result : Except ReaderError Nat}
    (h : Head head result) (line : Nat) (rest : List Line) : readCount (line + 1) (head ++ rest) =
      ⟨result.map fun value => ⟨value, line + head.length⟩, rest⟩ := by
  induction h generalizing line with
  | line h =>
      cases h with
      | value hvisible hvalue => simp [readCount, hvisible, hvalue, Except.map]
      | invalid hvisible hvalue => simp [readCount, hvisible, hvalue, Except.map]
      | undecodable => rfl
  | blank hblank _ ih =>
      cases hblank with
      | text hempty =>
          rw [List.cons_append, readCount]
          simp only [hempty, if_true, ih, List.length_cons]
          rw [Nat.add_assoc, Nat.add_comm 1]

theorem readCount_of_blank {blanks : List Line} (h : ∀ blank ∈ blanks, IsBlankLine blank)
    (number : Nat) : readCount number blanks = ⟨.error .missingCount, []⟩ := by
  induction blanks generalizing number with
  | nil => rfl
  | cons blank rest ih =>
      cases h blank List.mem_cons_self with
      | text hempty =>
          rw [readCount]
          simp only [hempty, if_true]
          exact ih (fun other hother => h other (List.mem_cons_of_mem _ hother)) _

private theorem exists_head (lines : List Line) : (∀ line ∈ lines, IsBlankLine line) ∨
    ∃ head rest result, lines = head ++ rest ∧ Head head result := by
  induction lines with
  | nil => exact .inl fun _ hmem => absurd hmem List.not_mem_nil
  | cons line lines ih =>
      cases line with
      | undecodable bytes => exact .inr ⟨[_], lines, _, rfl, .line .undecodable⟩
      | text content =>
          cases hempty : (Text.trim content).isEmpty with
          | false =>
              cases hvalue : count? (Text.trim content).toList with
              | some value => exact .inr ⟨[_], lines, _, rfl, .line (.value hempty hvalue)⟩
              | none => exact .inr ⟨[_], lines, _, rfl, .line (.invalid hempty hvalue)⟩
          | true =>
              rcases ih with hblanks | ⟨head, rest, result, rfl, hhead⟩
              · exact .inl (List.forall_mem_cons.mpr ⟨.text hempty, hblanks⟩)
              · exact .inr ⟨_, rest, result, rfl, .blank (.text hempty) hhead⟩

/-! ## The production lines -/

private theorem readLines_cons {line expected found : Nat} (h : found ≠ expected)
    (productions : List Production) (next : Line) (rest : List Line) :
    readLines library line expected found productions (next :: rest) =
      match lineProductions library (line + 1) next with
      | .error error => ⟨.error error, rest⟩
      | .ok more => readLines library (line + 1) expected (found + 1) (productions ++ more) rest := by
  cases next with
  | text content =>
      cases hgiven : productionsOfLine library content (line + 1) with
      | error error => simp only [readLines, if_neg h, lineProductions, hgiven]
      | ok more => simp only [readLines, if_neg h, lineProductions, hgiven]
  | undecodable bytes => simp only [readLines, if_neg h, lineProductions]

private theorem readLines_of_enough {line expected : Nat} {productions : List Production}
    (lines : List Line) :
    readLines library line expected expected productions lines = ⟨.ok productions, lines⟩ := by
  cases lines <;> simp [readLines]

/-- Lines that give productions are read before what follows them. -/
theorem readLines_append {line expected found : Nat} {productions : List Production}
    {lines : List Line} (h : Gives library line lines productions)
    (hcount : found + lines.length ≤ expected) (before : List Production) (rest : List Line) :
    readLines library line expected found before (lines ++ rest) =
      readLines library (line + lines.length) expected (found + lines.length) (before ++ productions)
        rest := by
  induction h generalizing found before with
  | nil => simp
  | @cons line next lines own more hnext _ ih =>
      rw [List.length_cons] at hcount
      have hmore : found ≠ expected := by omega
      rw [List.cons_append, readLines_cons hmore, hnext]
      simp only
      rw [ih (by omega), List.length_cons, List.append_assoc]
      congr 1 <;> omega

/-- From the first of some lines on productions are given, up to a number of lines, the last line or
a line with an error. -/
private theorem exists_gives (line count : Nat) (lines : List Line) :
    ∃ front rest productions, lines = front ++ rest ∧ Gives library line front productions ∧
      (front.length = count ∨ front.length < count ∧
        (rest = [] ∨ ∃ last after error, rest = last :: after ∧
          lineProductions library (line + front.length + 1) last = .error error)) := by
  induction lines generalizing line count with
  | nil =>
      refine ⟨[], [], [], rfl, .nil, ?_⟩
      rcases Nat.eq_zero_or_pos count with rfl | hpos
      · exact .inl rfl
      · exact .inr ⟨hpos, .inl rfl⟩
  | cons next lines ih =>
      rcases Nat.eq_zero_or_pos count with rfl | hpos
      · exact ⟨[], next :: lines, [], rfl, .nil, .inl rfl⟩
      cases hnext : lineProductions library (line + 1) next with
      | error error =>
          exact ⟨[], next :: lines, [], rfl, .nil,
            .inr ⟨hpos, .inr ⟨next, lines, error, rfl, hnext⟩⟩⟩
      | ok own =>
          obtain ⟨front, rest, productions, rfl, hgives, hend⟩ := ih (line + 1) (count - 1)
          refine ⟨next :: front, rest, own ++ productions, rfl, .cons hnext hgives, ?_⟩
          have hnumber : line + 1 + front.length + 1 = line + (next :: front).length + 1 := by
            rw [List.length_cons]; omega
          rw [← hnumber, List.length_cons]
          rcases hend with hall | ⟨hless, hend⟩
          · exact .inl (by omega)
          · exact .inr ⟨by omega, hend⟩

/-! ## The grammar -/

theorem readGrammar_of_head {head : List Line} {count : Nat} (h : Head head (.ok count))
    (rest : List Line) : readGrammar library (head ++ rest) =
      let reading := readLines library head.length count 0 [] rest
      ⟨reading.outcome.bind fun productions => (Grammar.checkDefault productions).mapError .grammar,
        reading.rest⟩ := by
  have hcount := readCount_of_head h 0 rest
  rw [Nat.zero_add] at hcount
  rw [readGrammar, readListing, hcount]
  simp only [Except.map, Nat.zero_add]
  cases (readLines library head.length count 0 [] rest).outcome <;> rfl

/-- Where reading stops, it leaves all that follows. -/
theorem readGrammar_of_stops {consumed : List Line} {outcome : Except ReaderError Grammar}
    (h : Stops library consumed outcome) (rest : List Line) :
    readGrammar library (consumed ++ rest) = ⟨outcome, rest⟩ := by
  cases h with
  | count hhead =>
      rw [readGrammar, readListing, readCount_of_head hhead 0 rest]
      rfl
  | @line head lines count productions last error hhead hlines hcount hlast =>
      have hmore : 0 + lines.length ≠ count := by omega
      rw [List.append_assoc, List.append_assoc, readGrammar_of_head hhead,
        readLines_append hlines (by omega), List.singleton_append, readLines_cons hmore, hlast]
      rfl
  | all hhead hlines =>
      rw [List.append_assoc, readGrammar_of_head hhead, readLines_append hlines (by omega),
        Nat.zero_add, readLines_of_enough]
      rfl

theorem readGrammar_of_lacks {consumed : List Line} {error : ReaderError}
    (h : Lacks library consumed error) : readGrammar library consumed = ⟨.error error, []⟩ := by
  cases h with
  | count hblanks =>
      rw [readGrammar, readListing, readCount_of_blank hblanks]
      rfl
  | @lines head lines count productions hhead hlines hcount =>
      have hall : 0 + lines.length ≤ count := by omega
      have hread := readLines_append hlines hall [] []
      rw [List.append_nil] at hread
      rw [readGrammar_of_head hhead, hread, Nat.zero_add, readLines, if_neg (by omega)]
      rfl

theorem stops_or_lacks (lines : List Line) :
    (∃ consumed rest outcome, lines = consumed ++ rest ∧ Stops library consumed outcome) ∨
      ∃ error, Lacks library lines error := by
  rcases exists_head lines with hblanks | ⟨head, following, result, rfl, hhead⟩
  · exact .inr ⟨_, .count hblanks⟩
  cases result with
  | error error => exact .inl ⟨head, following, _, rfl, .count hhead⟩
  | ok count =>
      obtain ⟨front, rest, productions, rfl, hgives, rfl | ⟨hless, rfl | ⟨last, after, error, rfl,
        hlast⟩⟩⟩ := exists_gives head.length count following
      · exact .inl ⟨_, rest, _, (List.append_assoc ..).symm, .all hhead hgives⟩
      · rw [List.append_nil]
        exact .inr ⟨_, .lines hhead hgives hless⟩
      · exact .inl ⟨_, after, _, by simp, .line hhead hgives hless hlast⟩

/-! ## The numbers of lines -/

private theorem line?_of_lineProductions {number line : Nat} {next : Line} {error : ReaderError}
    (h : lineProductions library number next = .error error) (hline : error.line? = some line) :
    line = number := by
  cases next with
  | undecodable bytes =>
      cases h
      cases hline
  | text content =>
      simp only [lineProductions, productionsOfLine] at h
      split at h
      · cases h
        exact (Option.some.inj hline).symm
      · split at h
        · cases h
          exact (Option.some.inj hline).symm
        · cases h

private theorem line?_of_head {head : List Line} {error : ReaderError} (h : Head head (.error error)) :
    error.line? = none := by
  generalize hresult : Except.error error = result at h
  induction h with
  | line h =>
      cases h with
      | value => cases hresult
      | invalid | undecodable =>
          cases hresult
          rfl
  | blank _ _ ih => exact ih hresult

/-- A line that an error tells is the last one consumed. -/
theorem Stops.line_eq_length {consumed : List Line} {outcome : Except ReaderError Grammar}
    (h : Stops library consumed outcome) {error : ReaderError} (herror : outcome = .error error)
    {line : Nat} (hline : error.line? = some line) : line = consumed.length := by
  cases h with
  | count hhead =>
      cases herror
      rw [line?_of_head hhead] at hline
      cases hline
  | line _ _ _ hlast =>
      cases herror
      simpa [Nat.add_assoc] using line?_of_lineProductions hlast hline
  | @all head lines productions _ _ =>
      cases hcheck : Grammar.checkDefault productions with
      | ok grammar =>
          rw [hcheck] at herror
          cases herror
      | error cause =>
          rw [hcheck] at herror
          cases herror
          cases hline

theorem Lacks.line?_eq_none {consumed : List Line} {error : ReaderError}
    (h : Lacks library consumed error) : error.line? = none := by
  cases h <;> rfl

/-! ## The bytes of an input -/

/-- Reads a grammar from the bytes of an input. -/
def readInput (library : Combinators) (input : List UInt8) : Reading Grammar :=
  readGrammar library (Text.linesOfBytes input)

/-- Behind closed lines reading stops in the same way, whatever bytes follow. -/
theorem readInput_of_closed {pieces : List (List UInt8)} {outcome : Except ReaderError Grammar}
    (h : Stops library (pieces.map Line.ofBytes) outcome)
    (hclosed : ∀ piece ∈ pieces, Text.IsClosed 10 piece) (further : List UInt8) :
    readInput library (pieces.flatten ++ further) = ⟨outcome, Text.linesOfBytes further⟩ := by
  rw [readInput, Text.linesOfBytes, Text.cutAfter_flatten_append hclosed, List.map_append,
    readGrammar_of_stops h]
  rfl

/-- Reading a grammar from an input consumes some of its lines and leaves the bytes of the others.
Either it has met the end of the input, or it has stopped by itself; if its last line is then
complete, the outcome is the same before more input, which is left.  An error that tells the number
of a line tells that of the last one consumed. -/
theorem readGrammar_consumes (library : Combinators) (input : List UInt8) :
    ∃ consumed rest, Text.cutAfter 10 input = consumed ++ rest ∧
      Text.bytesOfLines (readInput library input).rest = rest.flatten ∧
      ((∃ error, (readInput library input).outcome = .error error ∧
          Lacks library (consumed.map Line.ofBytes) error ∧ rest = []) ∨
        Stops library (consumed.map Line.ofBytes) (readInput library input).outcome ∧
          ∀ last ∈ consumed.getLast?, last.getLast? = some 10 → ∀ further,
            (readInput library (input ++ further)).outcome = (readInput library input).outcome ∧
              Text.bytesOfLines (readInput library (input ++ further)).rest = rest.flatten ++ further) ∧
      ∀ error, (readInput library input).outcome = .error error → ∀ line, error.line? = some line →
        line = consumed.length := by
  rcases stops_or_lacks (Text.linesOfBytes input) with ⟨front, back, outcome, hlines, hstops⟩ |
    ⟨error, hlacks⟩
  · obtain ⟨consumed, rest, hcut, rfl, rfl⟩ := List.map_eq_append_iff.mp hlines
    have hreading : readInput library input = ⟨outcome, rest.map Line.ofBytes⟩ := by
      rw [readInput, hlines, readGrammar_of_stops hstops]
    rw [hreading]
    refine ⟨consumed, rest, hcut, Text.bytesOfLines_map_ofBytes rest, .inr ⟨hstops, ?_⟩, ?_⟩
    · intro last hlast hmark further
      obtain ⟨before, rfl⟩ := List.getLast?_eq_some_iff.mp hlast
      have hclosed := Text.isClosed_of_cutAfter_eq (by simpa using hcut)
        (List.mem_of_getLast? hmark)
      have hinput : input ++ further = (before ++ [last]).flatten ++ (rest.flatten ++ further) := by
        rw [← Text.flatten_cutAfter 10 input, hcut, List.flatten_append, List.append_assoc]
      rw [hinput, readInput_of_closed hstops hclosed]
      exact ⟨rfl, Text.bytesOfLines_linesOfBytes _⟩
    · intro error herror line hline
      simpa using hstops.line_eq_length herror hline
  · have hreading : readInput library input = ⟨.error error, []⟩ := readGrammar_of_lacks hlacks
    rw [hreading]
    refine ⟨Text.cutAfter 10 input, [], (List.append_nil _).symm, rfl,
      .inl ⟨error, rfl, hlacks, rfl⟩, ?_⟩
    intro other herror line hline
    cases herror
    rw [hlacks.line?_eq_none] at hline
    cases hline

/-- The lines behind a grammar are left to whoever reads on. -/
example : Text.bytesOfLines (readInput .standard "\n1\nS -> a\nab\nb".toUTF8.data.toList).rest =
    "ab\nb".toUTF8.data.toList := by decide +kernel

end TableParsing.GrammarText
