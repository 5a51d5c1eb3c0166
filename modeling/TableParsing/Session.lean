import TableParsing.Report.Tables
import TableParsing.Text.Line
import TableParsing.Text.WhiteSpace

/-!
# Sessions

A session answers for the lines of an input whether they are sentences of a
grammar.  If both methods apply, it asks which one to use, answers with it up to
a blank line, and asks again; if only one applies, it announces the class of the
grammar and answers with that one; if none applies, it announces that.  If it is
to show a parse table that cannot be written, it breaks off.

A session is a machine over lines.  Between two lines it is in a `Mode`, and
`Session.afterLine` says which events a line leads to and in which mode the
session waits for the next one.  The output and the log of a session are read
off its events.
-/

namespace TableParsing

/-- A parser of either kind. -/
inductive Recognizer where
  | ll1 (parser : Predictive.Parser)
  | slr1 (parser : ShiftReduce.Parser)

namespace Recognizer

/-- Whether the characters of a text are a sentence. -/
def accepts (recognizer : Recognizer) (text : String) : Bool :=
  match recognizer with
  | ll1 parser => parser.accepts (Word.split text)
  | slr1 parser => parser.accepts (Word.split text)

/-- What is reported while a text is read. -/
def records (recognizer : Recognizer) (text : String) : List Log.Record :=
  match recognizer with
  | ll1 parser => (parser.moves (Word.split text)).map Predictive.Move.record
  | slr1 parser => (parser.moves (Word.split text)).map ShiftReduce.Move.record

def grid (recognizer : Recognizer) : Report.Grid :=
  match recognizer with
  | ll1 parser => Report.ll1Grid parser
  | slr1 parser => Report.slr1Grid parser

end Recognizer

namespace Session

def prompt : String := "Select a parser (T: for LL(1), B: for SLR(1), Q: quit):"

/-- Both parsers of a grammar, to choose from. -/
structure Menu where
  ll1 : Predictive.Parser
  slr1 : ShiftReduce.Parser

/-- What a session waits for. -/
inductive Mode where
  /-- A selection from the menu. -/
  | choosing (menu : Menu)
  /-- A text to answer for; a blank line leads back to the menu, if there is one. -/
  | answering (recognizer : Recognizer) (menu : Option Menu)

/-- What a session does. -/
inductive Event where
  | prompted
  | announced (grammarClass : GrammarClass)
  /-- The parse table of the parser that will answer is shown. -/
  | showed (grid : Report.Grid)
  /-- The parse table cannot be written, which ends the session. -/
  | brokeOff
  | answered (recognizer : Recognizer) (text : String)
  /-- A selection that names no parser. -/
  | ignored (selection : String)

def Event.output : Event → String
  | prompted => prompt ++ "\n"
  | announced grammarClass => grammarClass.text ++ "\n"
  | showed grid => grid.text ++ "\n"
  | answered recognizer text => if recognizer.accepts text then "yes\n" else "no\n"
  | brokeOff | ignored _ => ""

/-- Whether an event is the end of a session that breaks off. -/
def Event.isBreak : Event → Bool
  | brokeOff => true
  | _ => false

def Event.records : Event → List Log.Record
  | answered recognizer text => recognizer.records text
  | ignored selection => [⟨.debug, "Ignoring selection " ++ Text.quoted selection⟩]
  | _ => []

/-! ## The course of a session -/

/-- How a parser begins to answer. -/
def takeUp (tables : Bool) (recognizer : Recognizer) (menu : Option Menu) :
    List Event × Option Mode :=
  let mode := Mode.answering recognizer menu
  if !tables then ([], some mode)
  else if recognizer.grid.isWritable then ([.showed recognizer.grid], some mode)
  else ([.brokeOff], none)

/-- Puts the announcement of the grammar's class before a beginning. -/
def announce (grammarClass : GrammarClass) (beginning : List Event × Option Mode) :
    List Event × Option Mode :=
  (.announced grammarClass :: beginning.1, beginning.2)

/-- The beginning of a session; without a mode it is over at once. -/
def begin (tables : Bool) (analysis : Analysis) : List Event × Option Mode :=
  match analysis.ll1, analysis.slr1 with
  | .ok ll1, .ok slr1 => ([.prompted], some (.choosing ⟨ll1, slr1⟩))
  | .ok ll1, .error _ => announce .ll1Only (takeUp tables (.ll1 ll1) none)
  | .error _, .ok slr1 => announce .slr1Only (takeUp tables (.slr1 slr1) none)
  | .error _, .error _ => announce .neither ([], none)

/-- The return from answering to the menu. -/
def leave (menu : Option Menu) : List Event × Option Mode :=
  match menu with
  | some menu => ([.prompted], some (.choosing menu))
  | none => ([], none)

/-- What a line, already without white space at its ends, leads to. -/
def afterLine (tables : Bool) (mode : Mode) (line : String) : List Event × Option Mode :=
  match mode with
  | .choosing menu =>
    if line = "T" ∨ line = "t" then
      takeUp tables (.ll1 menu.ll1) (some menu)
    else if line = "B" ∨ line = "b" then
      takeUp tables (.slr1 menu.slr1) (some menu)
    else if line = "Q" ∨ line = "q" then
      ([], none)
    else
      ([.ignored line, .prompted], some (.choosing menu))
  | .answering recognizer menu =>
    if line.isEmpty then leave menu
    else ([.answered recognizer line], some (.answering recognizer menu))

/-- What the end of the input leads to; the session is over then. -/
def afterInput : Mode → List Event
  | .choosing _ => []
  | .answering _ menu => (leave menu).1

/-- A finished session. -/
structure Transcript where
  events : List Event
  /-- The lines that were not read. -/
  rest : List Text.Line
  /-- Whether the session ended because a line was not a text. -/
  interrupted : Bool

/-- Continues a session over the lines of its input. -/
def runFrom (tables : Bool) (mode : Mode) : List Text.Line → Transcript
  | [] => ⟨afterInput mode, [], false⟩
  | .undecodable _ :: rest => ⟨[], rest, true⟩
  | .text content :: rest =>
    match afterLine tables mode (Text.trim content) with
    | (events, none) => ⟨events, rest, false⟩
    | (events, some following) =>
      let remaining := runFrom tables following rest
      { remaining with events := events ++ remaining.events }

/-- The session of an analysed grammar over the lines of an input. -/
def run (tables : Bool) (analysis : Analysis) (lines : List Text.Line) : Transcript :=
  match begin tables analysis with
  | (events, none) => ⟨events, lines, false⟩
  | (events, some mode) =>
    let remaining := runFrom tables mode lines
    { remaining with events := events ++ remaining.events }

namespace Transcript

def output (transcript : Transcript) : String := String.join (transcript.events.map Event.output)

/-- Whether a session broke off because a parse table could not be written. -/
def brokeOff (transcript : Transcript) : Bool := transcript.events.any Event.isBreak

def records (transcript : Transcript) : List Log.Record := transcript.events.flatMap Event.records

end Transcript

end Session

end TableParsing
