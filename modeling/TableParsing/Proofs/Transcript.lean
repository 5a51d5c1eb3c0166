import TableParsing.Proofs.InputLines
import TableParsing.Proofs.Predictive.Recognition
import TableParsing.Proofs.ShiftReduce.Termination
import TableParsing.Session

/-!
# What a session writes and what it leaves

A session that shows no tables is described without its parsers: by the lines that it
reads, those that it writes and those that it leaves unread.  While it answers it
writes `yes` or `no` for each line, as the line is a sentence or not, up to a blank line
(`Answering`); while it lets its user choose it writes the prompt before each line, and
answers after a selection (`Choosing`).

`run_transcript` says that for a grammar whose nonterminals all derive words, and for
any text as the input, the session comes to its end and is described in this way: each
line that it answers is one on which the chosen parser ends, with the verdict that the
description tells.  As the description does not mention which of two parsers is chosen,
selections may be exchanged (`Exchanged`) and nothing is written or left that is
different.
-/

namespace TableParsing

variable {grammar : Grammar}

/-! ## Parsers that decide -/

theorem ShiftReduce.Parser.exists_answers {parser : Parser}
    (h : (Analysis.ofGrammar grammar).slr1 = .ok parser) (hproductive : grammar.Productive)
    (atoms : List String) : ∃ accepted, parser.Answers atoms accepted := by
  have hfirst := FirstSets.ofGrammar_closed grammar
  have hfollow := FollowSets.ofGrammar_closed grammar (FirstSets.ofGrammar grammar)
  unfold Answers Machine.Answers
  cases hatoms : Word.ofAtoms? atoms with
  | none => exact ⟨false, rfl⟩
  | some word =>
      exact exists_halts h hfirst hfollow hproductive (Word.isWord_of_ofAtoms? hatoms) linked_nil
        (reliable_nil h hfirst hfollow)

namespace Recognizer

/-- The driver ends on a text with a verdict. -/
def Answers (recognizer : Recognizer) (text : String) (accepted : Bool) : Prop :=
  match recognizer with
  | ll1 parser => parser.Answers (Word.split text) accepted
  | slr1 parser => parser.Answers (Word.split text) accepted

/-- A parser ends on every text with its verdict, and accepts the sentences. -/
structure Decides (grammar : Grammar) (recognizer : Recognizer) : Prop where
  answers : ∀ text, recognizer.Answers text (recognizer.accepts text)
  accepts_iff : ∀ text, recognizer.accepts text = true ↔ grammar.IsSentence (Word.split text)

theorem decides_ll1 {parser : Predictive.Parser}
    (h : (Analysis.ofGrammar grammar).ll1 = .ok parser) : Decides grammar (.ll1 parser) where
  answers text := Predictive.Parser.answers_accepts h (Word.split text)
  accepts_iff _ := Predictive.Parser.accepts_iff h

theorem decides_slr1 {parser : ShiftReduce.Parser}
    (h : (Analysis.ofGrammar grammar).slr1 = .ok parser) (hproductive : grammar.Productive) :
    Decides grammar (.slr1 parser) where
  answers text := by
    show parser.Answers (Word.split text) (parser.accepts (Word.split text))
    obtain ⟨accepted, hanswers⟩ :=
      ShiftReduce.Parser.exists_answers h hproductive (Word.split text)
    -- the bounded run has the verdict of the driver, since both accept the sentences
    cases hverdict : parser.accepts (Word.split text) with
    | true => exact ShiftReduce.Parser.answers_of_accepts hverdict
    | false =>
        cases accepted with
        | false => exact hanswers
        | true =>
            have hsentence := ShiftReduce.Parser.isSentence_of_answers h hanswers
            rw [(ShiftReduce.Parser.accepts_iff h).mpr hsentence] at hverdict
            cases hverdict
  accepts_iff _ := ShiftReduce.Parser.accepts_iff h

end Recognizer

namespace Session

/-! ## What is written -/

/-- The lines that are written and left unread while a session answers. -/
inductive Answering (grammar : Grammar) : (lines written unread : List String) → Prop
  | endOfInput : Answering grammar [] [] []
  | blank {line : String} {rest : List String} (hblank : Text.trim line = "") :
      Answering grammar (line :: rest) [] rest
  | yes {line : String} {rest written unread : List String} (hvisible : Text.trim line ≠ "")
      (hsentence : grammar.IsSentence (Word.split (Text.trim line)))
      (hrest : Answering grammar rest written unread) :
      Answering grammar (line :: rest) ("yes" :: written) unread
  | no {line : String} {rest written unread : List String} (hvisible : Text.trim line ≠ "")
      (hsentence : ¬ grammar.IsSentence (Word.split (Text.trim line)))
      (hrest : Answering grammar rest written unread) :
      Answering grammar (line :: rest) ("no" :: written) unread

/-- A line that selects a parser. -/
def IsSelection (line : String) : Prop := Text.trim line ∈ ["T", "t", "B", "b"]

instance : DecidablePred IsSelection := fun line =>
  inferInstanceAs (Decidable (Text.trim line ∈ ["T", "t", "B", "b"]))

/-- A line that ends the session. -/
def IsQuit (line : String) : Prop := Text.trim line ∈ ["Q", "q"]

/-- The lines that are written and left unread while a session lets its user choose. -/
inductive Choosing (grammar : Grammar) : (lines written unread : List String) → Prop
  | endOfInput : Choosing grammar [] [prompt] []
  | quit {line : String} {rest : List String} (hquit : IsQuit line) :
      Choosing grammar (line :: rest) [prompt] rest
  | ignored {line : String} {rest written unread : List String} (hselection : ¬ IsSelection line)
      (hquit : ¬ IsQuit line) (hrest : Choosing grammar rest written unread) :
      Choosing grammar (line :: rest) (prompt :: written) unread
  | selected {line : String} {rest answers back written unread : List String}
      (hselection : IsSelection line) (hanswers : Answering grammar rest answers back)
      (hback : Choosing grammar back written unread) :
      Choosing grammar (line :: rest) (prompt :: answers ++ written) unread

/-- The lines that a session for a grammar of some class writes and leaves unread. -/
inductive Converses (grammar : Grammar) : GrammarClass → (lines written unread : List String) → Prop
  | both {lines written unread : List String} (h : Choosing grammar lines written unread) :
      Converses grammar .both lines written unread
  | ll1Only {lines written unread : List String} (h : Answering grammar lines written unread) :
      Converses grammar .ll1Only lines (GrammarClass.ll1Only.text :: written) unread
  | slr1Only {lines written unread : List String} (h : Answering grammar lines written unread) :
      Converses grammar .slr1Only lines (GrammarClass.slr1Only.text :: written) unread
  | neither {lines : List String} :
      Converses grammar .neither lines [GrammarClass.neither.text] lines

/-- Lines from the menu on, and the same lines with other selections. -/
inductive Exchanged : (lines lines' : List String) → Prop
  | same {lines : List String} : Exchanged lines lines
  | ignored {line : String} {rest rest' : List String} (hselection : ¬ IsSelection line)
      (hquit : ¬ IsQuit line) (hrest : Exchanged rest rest') :
      Exchanged (line :: rest) (line :: rest')
  /-- All lines behind the selection stay. -/
  | last {line line' : String} {texts : List String} (hselection : IsSelection line)
      (hselection' : IsSelection line') : Exchanged (line :: texts) (line' :: texts)
  /-- The lines that are answered stay, up to the blank line that leads back to the menu. -/
  | selection {line line' blank : String} {texts rest rest' : List String}
      (hselection : IsSelection line) (hselection' : IsSelection line')
      (hvisible : ∀ text ∈ texts, Text.trim text ≠ "") (hblank : Text.trim blank = "")
      (hrest : Exchanged rest rest') :
      Exchanged (line :: texts ++ blank :: rest) (line' :: texts ++ blank :: rest')

/-! ## Every input is described -/

private theorem exists_answering (grammar : Grammar) (lines : List String) :
    ∃ written unread, Answering grammar lines written unread ∧ unread.length ≤ lines.length := by
  induction lines with
  | nil => exact ⟨[], [], .endOfInput, Nat.le_refl _⟩
  | cons line rest ih =>
      by_cases hblank : Text.trim line = ""
      · exact ⟨[], rest, .blank hblank, Nat.le_succ _⟩
      obtain ⟨written, unread, hrest, hlength⟩ := ih
      by_cases hsentence : grammar.IsSentence (Word.split (Text.trim line))
      · exact ⟨_, unread, .yes hblank hsentence hrest, Nat.le_succ_of_le hlength⟩
      · exact ⟨_, unread, .no hblank hsentence hrest, Nat.le_succ_of_le hlength⟩

private theorem exists_choosing (grammar : Grammar) (lines : List String) :
    ∃ written unread, Choosing grammar lines written unread := by
  induction hlength : lines.length using Nat.strong_induction_on generalizing lines with
  | _ length ih =>
    cases lines with
    | nil => exact ⟨_, [], .endOfInput⟩
    | cons line rest =>
        rw [List.length_cons] at hlength
        by_cases hquit : IsQuit line
        · exact ⟨_, rest, .quit hquit⟩
        by_cases hselection : IsSelection line
        · obtain ⟨answers, back, hanswers, hshorter⟩ := exists_answering grammar rest
          obtain ⟨written, unread, hback⟩ := ih back.length (by omega) back rfl
          exact ⟨_, unread, .selected hselection hanswers hback⟩
        · obtain ⟨written, unread, hrest⟩ := ih rest.length (by omega) rest rfl
          exact ⟨_, unread, .ignored hselection hquit hrest⟩

/-! ## Other selections -/

/-- Behind a block of texts that is answered the session goes on alike, whatever follows. -/
theorem Answering.of_texts {texts rest written unread : List String} {blank : String}
    (hvisible : ∀ text ∈ texts, Text.trim text ≠ "") (hblank : Text.trim blank = "")
    (h : Answering grammar (texts ++ blank :: rest) written unread) :
    unread = rest ∧ ∀ rest', Answering grammar (texts ++ blank :: rest') written rest' := by
  induction texts generalizing written with
  | nil =>
      cases h with
      | blank => exact ⟨rfl, fun _ => .blank hblank⟩
      | yes hne | no hne => exact absurd hblank hne
  | cons text texts ih =>
      obtain ⟨htext, htexts⟩ := List.forall_mem_cons.mp hvisible
      cases h with
      | blank h => exact absurd h htext
      | yes _ hsentence hrest =>
          obtain ⟨hunread, hother⟩ := ih htexts hrest
          exact ⟨hunread, fun rest' => .yes htext hsentence (hother rest')⟩
      | no _ hsentence hrest =>
          obtain ⟨hunread, hother⟩ := ih htexts hrest
          exact ⟨hunread, fun rest' => .no htext hsentence (hother rest')⟩

theorem IsSelection.not_isQuit {line : String} (h : IsSelection line) : ¬ IsQuit line := by
  unfold IsQuit
  have hall : ∀ selection ∈ ["T", "t", "B", "b"], selection ∉ ["Q", "q"] := by decide
  exact hall _ h

/-- Which parser is selected makes no difference. -/
theorem Choosing.exchange {lines lines' written unread : List String}
    (h : Choosing grammar lines written unread) (hexchanged : Exchanged lines lines') :
    Choosing grammar lines' written unread := by
  induction hexchanged generalizing written with
  | same => exact h
  | ignored hselection hquit _ ih =>
      cases h with
      | quit h => exact absurd h hquit
      | ignored _ _ hrest => exact .ignored hselection hquit (ih hrest)
      | selected h => exact absurd h hselection
  | last hselection hselection' =>
      cases h with
      | quit h => exact absurd h hselection.not_isQuit
      | ignored h => exact absurd hselection h
      | selected _ hanswers hback => exact .selected hselection' hanswers hback
  | selection hselection hselection' hvisible hblank _ ih =>
      cases h with
      | quit h => exact absurd h hselection.not_isQuit
      | ignored h => exact absurd hselection h
      | selected _ hanswers hback =>
          obtain ⟨rfl, hother⟩ := hanswers.of_texts hvisible hblank
          exact .selected hselection' (hother _) (ih hback)

/-! ## The course of a session -/

/-- An event is no break, and if it is an answer its parser ends. -/
def Event.Ends : Event → Prop
  | answered recognizer text => recognizer.Answers text (recognizer.accepts text)
  | brokeOff => False
  | _ => True

/-- A session comes to its end and has written some lines and left others unread. -/
structure Delivers (session : Transcript) (written unread : List String) : Prop where
  output : session.output = String.join (written.map (· ++ "\n"))
  rest : session.rest = unread.map .text
  interrupted : session.interrupted = false
  ends : ∀ event ∈ session.events, event.Ends

/-- A transcript with events before it. -/
def Transcript.after (events : List Event) (session : Transcript) : Transcript :=
  { session with events := events ++ session.events }

theorem delivers_nil (unread : List String) :
    Delivers ⟨[], unread.map .text, false⟩ [] unread where
  output := rfl
  rest := rfl
  interrupted := rfl
  ends _ h := absurd h List.not_mem_nil

section Events

variable {session : Transcript} {written unread : List String}

/-- An event that ends puts its lines before what is written. -/
theorem Delivers.after_event (h : Delivers session written unread) {event : Event}
    (hends : event.Ends) {own : List String}
    (hown : event.output = String.join (own.map (· ++ "\n"))) :
    Delivers (session.after [event]) (own ++ written) unread where
  output := by
    have houtput := h.output
    rw [Transcript.output] at houtput ⊢
    rw [Transcript.after, List.singleton_append, List.map_cons, String.join_cons, hown, houtput,
      List.map_append, String.join_append]
  rest := h.rest
  interrupted := h.interrupted
  ends := List.forall_mem_cons.mpr ⟨hends, h.ends⟩

theorem Delivers.after_line (h : Delivers session written unread) {event : Event}
    (hends : event.Ends) {line : String} (hline : event.output = line ++ "\n") :
    Delivers (session.after [event]) (line :: written) unread := by
  have hown : event.output = String.join ([line].map (· ++ "\n")) := by simp [hline]
  exact h.after_event hends hown

theorem Delivers.after_prompt (h : Delivers session written unread) :
    Delivers (session.after [.prompted]) (prompt :: written) unread :=
  h.after_line (show Event.prompted.Ends from trivial) rfl

theorem Delivers.after_class (h : Delivers session written unread) (grammarClass : GrammarClass) :
    Delivers (session.after [.announced grammarClass]) (grammarClass.text :: written) unread :=
  h.after_line (show (Event.announced grammarClass).Ends from trivial) rfl

theorem Delivers.after_answer {recognizer : Recognizer} (hdecides : recognizer.Decides grammar)
    (h : Delivers session written unread) (text : String) :
    Delivers (session.after [.answered recognizer text])
      ((if recognizer.accepts text then "yes" else "no") :: written) unread := by
  have hends : (Event.answered recognizer text).Ends := hdecides.answers text
  refine h.after_line hends ?_
  rw [Event.output]
  split <;> rfl

theorem Delivers.after_ignored (h : Delivers session written unread) (selection : String) :
    Delivers (session.after [.ignored selection]) written unread := by
  have hown : (Event.ignored selection).output = String.join ([].map (· ++ "\n")) := rfl
  exact h.after_event (show (Event.ignored selection).Ends from trivial) hown

end Events

/-- What follows the answers: the menu, if there is one. -/
def resume (menu : Option Menu) (lines : List String) : Transcript :=
  match menu with
  | some menu => (runFrom false (.choosing menu) (lines.map .text)).after [.prompted]
  | none => ⟨[], lines.map .text, false⟩

section Answers

variable {recognizer : Recognizer} {menu : Option Menu} {line : String}

private theorem runFrom_answering_nil : runFrom false (.answering recognizer menu) [] = resume menu [] := by
  cases menu <;> rfl

private theorem runFrom_answering_blank (h : Text.trim line = "") (rest : List String) :
    runFrom false (.answering recognizer menu) ((line :: rest).map .text) = resume menu rest := by
  cases menu <;> simp [runFrom, afterLine, h, leave, resume, Transcript.after]

private theorem runFrom_answering_visible (h : Text.trim line ≠ "") (rest : List String) :
    runFrom false (.answering recognizer menu) ((line :: rest).map .text) =
      (runFrom false (.answering recognizer menu) (rest.map .text)).after
        [.answered recognizer (Text.trim line)] := by
  simp [runFrom, afterLine, h, Transcript.after]

/-- A parser that decides writes the answers, and then the session is resumed. -/
theorem delivers_answering (hdecides : recognizer.Decides grammar)
    {lines answers back written unread : List String} (h : Answering grammar lines answers back)
    (hback : Delivers (resume menu back) written unread) :
    Delivers (runFrom false (.answering recognizer menu) (lines.map .text)) (answers ++ written)
      unread := by
  induction h with
  | endOfInput =>
      rw [List.map_nil, runFrom_answering_nil]
      exact hback
  | blank hblank =>
      rw [runFrom_answering_blank hblank]
      exact hback
  | @yes line _ _ _ hvisible hsentence _ ih =>
      have hanswer := (ih hback).after_answer hdecides (Text.trim line)
      rwa [if_pos ((hdecides.accepts_iff _).mpr hsentence),
        ← runFrom_answering_visible hvisible] at hanswer
  | @no line _ _ _ hvisible hsentence _ ih =>
      have hanswer := (ih hback).after_answer hdecides (Text.trim line)
      rwa [if_neg (mt (hdecides.accepts_iff _).mp hsentence),
        ← runFrom_answering_visible hvisible] at hanswer

theorem delivers_answers_only (hdecides : recognizer.Decides grammar)
    {lines answers unread : List String} (h : Answering grammar lines answers unread) :
    Delivers (runFrom false (.answering recognizer none) (lines.map .text)) answers unread := by
  have hover : Delivers (resume none unread) [] unread := delivers_nil unread
  simpa using delivers_answering hdecides h hover

end Answers

section Choices

variable {menu : Menu} {line : String}

private theorem runFrom_choosing_quit (h : IsQuit line) (rest : List String) :
    runFrom false (.choosing menu) ((line :: rest).map .text) = ⟨[], rest.map .text, false⟩ := by
  simp only [IsQuit, List.mem_cons, List.not_mem_nil, or_false] at h
  rcases h with h | h
  · simp [runFrom, afterLine, h]
  · simp [runFrom, afterLine, h]

private theorem runFrom_choosing_ignored (hselection : ¬ IsSelection line) (hquit : ¬ IsQuit line)
    (rest : List String) : runFrom false (.choosing menu) ((line :: rest).map .text) =
      (resume (some menu) rest).after [.ignored (Text.trim line)] := by
  simp only [IsSelection, IsQuit, List.mem_cons, List.not_mem_nil, or_false, not_or]
    at hselection hquit
  simp [runFrom, afterLine, hselection, hquit, resume, Transcript.after]

private theorem runFrom_choosing_selection (h : IsSelection line) (rest : List String) :
    ∃ recognizer, (recognizer = .ll1 menu.ll1 ∨ recognizer = .slr1 menu.slr1) ∧
      runFrom false (.choosing menu) ((line :: rest).map .text) =
        runFrom false (.answering recognizer (some menu)) (rest.map .text) := by
  simp only [IsSelection, List.mem_cons, List.not_mem_nil, or_false] at h
  rcases h with h | h | h | h
  · exact ⟨_, .inl rfl, by simp [runFrom, afterLine, h, takeUp]⟩
  · exact ⟨_, .inl rfl, by simp [runFrom, afterLine, h, takeUp]⟩
  · exact ⟨_, .inr rfl, by simp [runFrom, afterLine, h, takeUp]⟩
  · exact ⟨_, .inr rfl, by simp [runFrom, afterLine, h, takeUp]⟩

/-- If both parsers of the menu decide, the session delivers what is described. -/
theorem delivers_choosing (hll1 : Recognizer.Decides grammar (.ll1 menu.ll1))
    (hslr1 : Recognizer.Decides grammar (.slr1 menu.slr1)) {lines written unread : List String}
    (h : Choosing grammar lines written unread) :
    Delivers (resume (some menu) lines) written unread := by
  induction h with
  | endOfInput => exact (delivers_nil []).after_prompt
  | quit hquit =>
      rw [resume, runFrom_choosing_quit hquit]
      exact (delivers_nil _).after_prompt
  | ignored hselection hquit _ ih =>
      rw [resume, runFrom_choosing_ignored hselection hquit]
      exact (ih.after_ignored _).after_prompt
  | @selected line rest answers back written unread hselection hanswers _ ih =>
      obtain ⟨recognizer, hrecognizer, hrun⟩ := runFrom_choosing_selection hselection rest
      have hdecides : recognizer.Decides grammar := by
        rcases hrecognizer with rfl | rfl
        · exact hll1
        · exact hslr1
      rw [resume, hrun]
      exact (delivers_answering hdecides hanswers ih).after_prompt

end Choices

/-- For a productive grammar the session delivers what is described for its class. -/
theorem delivers_run (hproductive : grammar.Productive) {lines written unread : List String}
    (h : Converses grammar (Analysis.ofGrammar grammar).grammarClass lines written unread) :
    Delivers (run false (.ofGrammar grammar) (lines.map .text)) written unread := by
  cases hll1 : (Analysis.ofGrammar grammar).ll1 with
  | ok ll1 =>
      have hfirst := Recognizer.decides_ll1 hll1
      cases hslr1 : (Analysis.ofGrammar grammar).slr1 with
      | ok slr1 =>
          simp only [Analysis.grammarClass, hll1, hslr1] at h
          simp only [run, begin, hll1, hslr1]
          cases h with
          | both h => exact delivers_choosing hfirst (Recognizer.decides_slr1 hslr1 hproductive) h
      | error conflict =>
          simp only [Analysis.grammarClass, hll1, hslr1] at h
          simp only [run, begin, hll1, hslr1]
          cases h with
          | ll1Only h => exact (delivers_answers_only hfirst h).after_class .ll1Only
  | error conflict =>
      cases hslr1 : (Analysis.ofGrammar grammar).slr1 with
      | ok slr1 =>
          simp only [Analysis.grammarClass, hll1, hslr1] at h
          simp only [run, begin, hll1, hslr1]
          have hsecond := Recognizer.decides_slr1 hslr1 hproductive
          cases h with
          | slr1Only h => exact (delivers_answers_only hsecond h).after_class .slr1Only
      | error conflict =>
          simp only [Analysis.grammarClass, hll1, hslr1] at h
          simp only [run, begin, hll1, hslr1]
          cases h with
          | neither => exact (delivers_nil lines).after_class .neither

/-- The session of a grammar over the bytes of a text, without tables. -/
def onText (grammar : Grammar) (input : String) : Transcript :=
  run false (.ofGrammar grammar) (Text.linesOfBytes input.toUTF8.data.toList)

theorem onText_eq (grammar : Grammar) (input : String) : onText grammar input =
    run false (.ofGrammar grammar) ((Text.contentsOfText input).map .text) := by
  rw [onText, Text.linesOfBytes_toUTF8, Text.linesOfText_eq]

theorem exists_converses (grammar : Grammar) (grammarClass : GrammarClass) (lines : List String) :
    ∃ written unread, Converses grammar grammarClass lines written unread := by
  obtain ⟨answers, back, hanswers, -⟩ := exists_answering grammar lines
  obtain ⟨written, unread, hchoosing⟩ := exists_choosing grammar lines
  cases grammarClass with
  | both => exact ⟨written, unread, .both hchoosing⟩
  | ll1Only => exact ⟨_, back, .ll1Only hanswers⟩
  | slr1Only => exact ⟨_, back, .slr1Only hanswers⟩
  | neither => exact ⟨_, lines, .neither⟩

/-- For a grammar whose nonterminals all derive words, and for any text as the input, a session that
shows no tables comes to its end: it writes the lines that are described for the class of the
grammar, it leaves the lines unread that are described, and the parser ends on each line that is
answered.  If the user can choose, other selections change neither what is written nor what is
left. -/
theorem run_transcript (hproductive : grammar.Productive) (input : String) :
    (∃ written unread,
      Converses grammar (Analysis.ofGrammar grammar).grammarClass (Text.contentsOfText input)
        written unread ∧
      (onText grammar input).output = String.join (written.map (· ++ "\n")) ∧
      Text.bytesOfLines (onText grammar input).rest = (String.join unread).toUTF8.data.toList) ∧
    ((onText grammar input).interrupted = false ∧
      ∀ event ∈ (onText grammar input).events, event.Ends) ∧
    ((Analysis.ofGrammar grammar).grammarClass = .both → ∀ input',
      Exchanged (Text.contentsOfText input) (Text.contentsOfText input') →
        (onText grammar input').output = (onText grammar input).output ∧
        Text.bytesOfLines (onText grammar input').rest =
          Text.bytesOfLines (onText grammar input).rest) := by
  obtain ⟨written, unread, hconverses⟩ := exists_converses grammar
    (Analysis.ofGrammar grammar).grammarClass (Text.contentsOfText input)
  have hdelivers := delivers_run hproductive hconverses
  rw [← onText_eq] at hdelivers
  refine ⟨⟨written, unread, hconverses, hdelivers.output, ?_⟩,
    ⟨hdelivers.interrupted, hdelivers.ends⟩, ?_⟩
  · rw [hdelivers.rest, Text.bytesOfLines_map_text]
  · intro hclass input' hexchanged
    rw [hclass] at hconverses
    obtain ⟨hchoosing⟩ := hconverses
    have hother := Converses.both (hchoosing.exchange hexchanged)
    rw [← hclass] at hother
    have hdelivers' := delivers_run hproductive hother
    rw [← onText_eq] at hdelivers'
    rw [hdelivers'.output, hdelivers.output, hdelivers'.rest, hdelivers.rest]
    exact ⟨rfl, rfl⟩

/-- For `nests` there are both parsers.  With either of them the session says of `()` that it is a
sentence and of `(()` that it is none, returns to the menu, and leaves what stands behind `q`. -/
theorem run_transcript_nests :
    ShiftReduce.Parser.nests.Productive ∧
      (Analysis.ofGrammar ShiftReduce.Parser.nests).grammarClass = .both ∧
      (onText ShiftReduce.Parser.nests "T\n()\n(()\n\nq\n()").output =
        prompt ++ "\nyes\nno\n" ++ prompt ++ "\n" ∧
      (onText ShiftReduce.Parser.nests " b\n()\n(()\n\nq\n()").output =
        (onText ShiftReduce.Parser.nests "T\n()\n(()\n\nq\n()").output ∧
      Text.bytesOfLines (onText ShiftReduce.Parser.nests " b\n()\n(()\n\nq\n()").rest =
        Text.bytesOfLines (onText ShiftReduce.Parser.nests "T\n()\n(()\n\nq\n()").rest := by
  have hproductive := ShiftReduce.Parser.nests_productive
  have hclass : (Analysis.ofGrammar ShiftReduce.Parser.nests).grammarClass = .both := by
    decide +kernel
  have hlines : Text.contentsOfText "T\n()\n(()\n\nq\n()" =
      ["T\n", "()\n", "(()\n", "\n", "q\n", "()"] := by decide +kernel
  have hlines' : Text.contentsOfText " b\n()\n(()\n\nq\n()" =
      [" b\n", "()\n", "(()\n", "\n", "q\n", "()"] := by decide +kernel
  have hexchanged : Exchanged (Text.contentsOfText "T\n()\n(()\n\nq\n()")
      (Text.contentsOfText " b\n()\n(()\n\nq\n()") := by
    rw [hlines, hlines']
    exact @Exchanged.selection "T\n" " b\n" "\n" ["()\n", "(()\n"] _ _ (by decide +kernel)
      (by decide +kernel) (by decide +kernel) (by decide +kernel) .same
  have hsame := (run_transcript hproductive "T\n()\n(()\n\nq\n()").2.2 hclass _ hexchanged
  refine ⟨hproductive, hclass, ?_, hsame⟩
  decide +kernel

end Session

end TableParsing
