import TableParsing.Command.Response

/-!
# The command line program

Reads files and the standard input, and prints and writes what the commands
respond.  A session is followed line by line, so that it can be led by hand.
-/

namespace TableParsing.Main

open Command Text

/-- The message of an input or output error. -/
def errorMessage (error : IO.Error) : String :=
  match error with
  | .noFileOrDirectory _ code details | .inappropriateType _ code details
  | .permissionDenied _ code details | .invalidArgument _ code details =>
    details ++ " (os error " ++ toString code ++ ")"
  | other => toString other

/-- Prints the message of a failure, if it has one, and fails. -/
def fail (failure : Failure) : IO UInt32 := do
  if let some message := failure.message? then IO.eprintln ("Error: " ++ message)
  return failure.exitCode.toUInt32

/-- The next line of the standard input; none at its end. -/
def nextLine (input : IO.FS.Stream) : IO (Option Line) := do
  let mut bytes : ByteArray := .empty
  repeat
    let byte ← input.read 1
    if byte.isEmpty then break
    bytes := bytes ++ byte
    if byte.data.toList = [10] then break
  return if bytes.isEmpty then none else some (Line.ofBytes bytes.data.toList)

/-- Prints what events write. -/
def printEvents (events : List Session.Event) : IO Unit := do
  let output ← IO.getStdout
  for event in events do
    output.putStr event.output
  output.flush

/-- Reads a grammar from the standard input, line by line and not beyond its end. -/
partial def readInput (input : IO.FS.Stream) (lines : List Line) :
    IO (Except GrammarText.ReaderError Grammar) := do
  match (GrammarText.readGrammar .standard lines).outcome with
  | .error .missingCount | .error (.missingLines ..) =>
    match ← nextLine input with
    | some line => readInput input (lines ++ [line])
    | none => return (GrammarText.readGrammar .standard lines).outcome
  | outcome => return outcome

/-- Ends a session whose last events are given. -/
def finish (events : List Session.Event) : IO UInt32 :=
  if events.any Session.Event.isBreak then fail .aborted else return 0

/-- Follows a session. -/
partial def follow (tables : Bool) (input : IO.FS.Stream) (mode : Session.Mode) : IO UInt32 := do
  match ← nextLine input with
  | none =>
    printEvents (Session.afterInput mode)
    return 0
  | some (.undecodable _) => fail (.error GrammarText.undecodableMessage)
  | some (.text content) =>
    let (events, following) := Session.afterLine tables mode (Text.trim content)
    printEvents events
    match following with
    | some mode => follow tables input mode
    | none => finish events

/-- Holds a session on the standard input. -/
def hold (tables : Bool) (input : IO.FS.Stream) (grammar : Grammar) : IO UInt32 := do
  let (events, mode) := Session.begin tables (.ofGrammar grammar)
  printEvents events
  match mode with
  | some mode => follow tables input mode
  | none => finish events

/-- The lines of a file, or the message of the error that occurs while it is read. -/
def readFile (name : String) : IO (Except String (List Line)) := do
  let handle ← IO.FS.Handle.mk name .read
  try
    return .ok (linesOfBytes (← handle.readBinToEnd).data.toList)
  catch error =>
    return .error (GrammarText.inputMessage (errorMessage error))

/-- Puts a response into effect. -/
def conclude (response : Response) : IO UInt32 := do
  (← IO.getStdout).putStr response.output
  match response.failure, response.file with
  | some failure, _ => fail failure
  | none, some file =>
    IO.FS.writeFile file.name file.content
    return 0
  | none, none => return 0

def carryOut (command : Command) : IO UInt32 := do
  let input ← IO.getStdin
  match command, command.file? with
  | .run none tables, _ =>
    match ← readInput input [] with
    | .ok grammar => hold tables input grammar
    | .error error => fail (.error error.message)
  | _, none => conclude (respondToInput command [])
  | command, some name =>
    match ← readFile name with
    | .error message => fail (.error message)
    | .ok file =>
      match command, (GrammarText.readGrammar .standard file).outcome with
      | .run _ tables, .ok grammar => hold tables input grammar
      | _, .ok grammar => conclude (respondWith command grammar [])
      | _, .error error => fail (.error error.message)

end TableParsing.Main

def main (arguments : List String) : IO UInt32 := do
  match TableParsing.Command.ofArguments arguments with
  | none => return 1
  | some command =>
    try
      TableParsing.Main.carryOut command
    catch error =>
      TableParsing.Main.fail (.error (TableParsing.Main.errorMessage error))
