import TableParsing.Combinators.Standard
import TableParsing.Command.Arguments
import TableParsing.Command.Directory
import TableParsing.GrammarText.Reader
import TableParsing.Report.StateGraph
import TableParsing.Session

/-!
# Carrying out commands

What a command answers to the grammar that it is given: text to print, a file to
create, or an error.  `Command.runIn` carries out a command line in a directory.

The grammar is read and the answer made before a file is created.
-/

namespace TableParsing

namespace Command

open Text (Line)

/-- Why a command did not end well. -/
inductive Failure where
  /-- It ended with a message. -/
  | error (message : String)
  /-- It was aborted, since a table could not be written. -/
  | aborted
deriving DecidableEq, Repr

namespace Failure

/-- The exit code of the program. -/
def exitCode : Failure → Nat
  | error _ => 1
  | aborted => 101

def message? : Failure → Option String
  | error message => some message
  | aborted => none

end Failure

structure Response where
  output : String := ""
  /-- The file that is to be created. -/
  file : Option NewFile := none
  failure : Option Failure := none
deriving DecidableEq, Repr

/-- A response that is nothing but an error. -/
def Response.ofError (message : String) : Response := { failure := some (.error message) }

/-! ## Tables -/

/-- The parse table of a method, or the message of the method's conflict. -/
def tableGrid (analysis : Analysis) (method : Method) : Except String Report.Grid :=
  match method with
  | .ll1 => (analysis.ll1.map Report.ll1Grid).mapError Predictive.Conflict.message
  | .slr1 => (analysis.slr1.map Report.slr1Grid).mapError ShiftReduce.Conflict.message

/-- The response that shows a grid: in a file, if one is named, and printed otherwise. -/
def showGrid (grid : Report.Grid) (csv : Option String) : Response :=
  if !grid.isWritable then { failure := some .aborted }
  else match csv with
  | some name => { file := some ⟨name, grid.csv⟩ }
  | none => { output := grid.text ++ "\n" }

/-! ## Responses -/

/-- The response of a session that reads its lines from `input`. -/
def sessionResponse (grammar : Grammar) (tables : Bool) (input : List Line) : Response :=
  let transcript := Session.run tables (.ofGrammar grammar) input
  { output := transcript.output
    failure :=
      if transcript.brokeOff then some .aborted
      else if transcript.interrupted then some (.error GrammarText.undecodableMessage)
      else none }

/-- The response to a command that works on a grammar, which has been read; a session reads on from
`input`. -/
def respondWith (command : Command) (grammar : Grammar) (input : List Line) : Response :=
  match command with
  | .run _ tables => sessionResponse grammar tables input
  | .check _ => { output := (Analysis.ofGrammar grammar).summary }
  | .sets _ csv => showGrid (Report.setsGrid grammar (.ofGrammar grammar)) csv
  | .table _ method csv =>
    match tableGrid (.ofGrammar grammar) method with
    | .ok grid => showGrid grid csv
    | .error message => .ofError message
  | .graph _ (some output) =>
    { file := some ⟨output, Report.stateGraph (.ofGrammar grammar)⟩ }
  | .graph _ none => .ofError (CommandError.notAvailable "Showing a graph needs an output file").message
  | .nothing | .version _ | .help => {}

def file? : Command → Option String
  | .run file _ => file
  | .check file => some file
  | .sets file _ => some file
  | .table file _ _ => some file
  | .graph file _ => some file
  | .nothing | .version _ | .help => none

/-- The response to a command whose grammar stands in a file with the given lines. -/
def respondToFile (command : Command) (file input : List Line) : Response :=
  match (GrammarText.readGrammar .standard file).outcome with
  | .ok grammar => respondWith command grammar input
  | .error error => .ofError error.message

/-- The response to a command without a grammar file: its grammar, if it works on one, is read from
the input. -/
def respondToInput (command : Command) (input : List Line) : Response :=
  match command with
  | .run none _ =>
    let reading := GrammarText.readGrammar .standard input
    match reading.outcome with
    | .ok grammar => respondWith command grammar reading.rest
    | .error error => .ofError error.message
  | .version name => { output := name ++ "\n" }
  | _ => {}

/-! ## In a directory -/

/-- How a run of the program ended. -/
structure Outcome where
  exitCode : Nat
  output : String
  /-- The message of the error that ended the run, if one did. -/
  error : Option String
  directory : Directory
deriving DecidableEq, Repr

def respondIn (directory : Directory) (command : Command) (input : List Line) : Response :=
  match command.file? with
  | none => respondToInput command input
  | some name =>
    match directory.openPath name with
    | .ok (.bytes content) => respondToFile command (Text.linesOfBytes content) input
    | .ok .input => respondToFile command input []
    | .ok .directory => .ofError (GrammarText.inputMessage FileError.isDirectory.message)
    | .error error => .ofError error.message

/-- Puts a response into effect. -/
def Response.conclude (response : Response) (directory : Directory) : Outcome :=
  match response.failure with
  | some failure => ⟨failure.exitCode, response.output, failure.message?, directory⟩
  | none =>
    match response.file with
    | none => ⟨0, response.output, none, directory⟩
    | some file =>
      match directory.write file with
      | .ok written => ⟨0, response.output ++ written.printed, none, written.directory⟩
      | .error error => ⟨1, response.output, some error.message, directory⟩

/-- Runs the program in a directory.  Wrong usage ends it without output. -/
def runIn (directory : Directory) (arguments : List String) (input : List UInt8) : Outcome :=
  match ofArguments arguments with
  | none => ⟨1, "", none, directory⟩
  | some command =>
    (respondIn directory command (Text.linesOfBytes input)).conclude directory

end Command

end TableParsing
