import TableParsing.Text.Quoted

/-!
# Command line arguments

The command line is a verb with the name of a grammar file and options:

* `run [file] [--debug]` answers for the lines of the input,
* `check file` tells the class of a grammar,
* `sets file [--csv out]` prints FIRST and FOLLOW sets,
* `table file [--method ll1|slr1] [--csv out]` prints a parse table,
* `graph file [-o out]` describes the automaton as a graph.

Options may stand before or after the file, and `--` ends them.  `-v` may be
repeated before the verb.  Wrong usage has no command.
-/

namespace TableParsing

namespace Command

inductive Method where
  | ll1
  | slr1
deriving DecidableEq, Repr

/-- Why a command cannot be carried out as it was given. -/
inductive CommandError where
  | missingArgument (name : String)
  | unknownMethod (name : String)
  | notAvailable (reason : String)
deriving DecidableEq, Repr

def CommandError.message : CommandError → String
  | missingArgument name => "Missing argument <" ++ name ++ ">"
  | unknownMethod name =>
    "Unknown method " ++ Text.quoted name ++ "\nHint: use --method ll1 or --method slr1."
  | notAvailable reason => reason

def Method.ofName (name : String) : Except CommandError Method :=
  if name = "ll1" then .ok .ll1
  else if name = "slr1" then .ok .slr1
  else .error (.unknownMethod name)

end Command

/-- What a command line asks for. -/
inductive Command where
  /-- Nothing but a level of detail was given. -/
  | nothing
  | version (name : String)
  | help
  | run (file : Option String) (tables : Bool)
  | check (file : String)
  | sets (file : String) (csv : Option String)
  | table (file : String) (method : Command.Method) (csv : Option String)
  | graph (file : String) (output : Option String)
deriving DecidableEq, Repr

namespace Command

/-! ## Options of a verb -/

/-- What an option wants after its name. -/
inductive OptionKind where
  | flag
  /-- A value; the default, if there is one, stands for a value that is left out. -/
  | value (default : Option String)
deriving DecidableEq, Repr

structure OptionSpec where
  name : String
  short : Option Char
  kind : OptionKind
deriving DecidableEq, Repr

/-- An option that was found, with its value; a flag has the empty value. -/
structure Setting where
  name : String
  value : Option String
deriving DecidableEq, Repr

namespace OptionSpec

/-- The option with a value that was found. -/
def withValue (spec : OptionSpec) (value : List Char) : Setting := ⟨spec.name, some (String.ofList value)⟩

def alone (spec : OptionSpec) : Setting :=
  match spec.kind with
  | .flag => ⟨spec.name, some ""⟩
  | .value default => ⟨spec.name, default⟩

end OptionSpec

/-- What the arguments behind a verb give: the file and the options in their order. -/
structure Given where
  file : Option String
  settings : List Setting
deriving DecidableEq, Repr

namespace Given

def addAll (given : Given) (settings : List Setting) : Given :=
  { given with settings := given.settings ++ settings }

def add (given : Given) (setting : Setting) : Given := given.addAll [setting]

/-- Gives up to wait for the value of an option. -/
def settle (given : Given) (pending : Option OptionSpec) : Given :=
  match pending with
  | some spec => given.add spec.alone
  | none => given

/-- Takes an argument that is no option: the file, unless there is one. -/
def withFile? (given : Given) (file : String) : Option Given :=
  if given.file.isSome then none else some { given with file := some file }

end Given

/-- What a cluster of short options asks for, or one long option. -/
inductive OptionScan where
  | wrong
  | version
  | help
  /-- Options, the last of which may still wait for its value. -/
  | settings (found : List Setting) (pending : Option OptionSpec)
deriving DecidableEq, Repr

/-- Whether an argument can be the value of the option before it. -/
def isValue (argument : String) : Bool :=
  match argument.toList with
  | '-' :: _ :: _ => false
  | _ => true

/-- A value without the equals signs in front of it. -/
def plainValue (value : List Char) : List Char := value.dropWhile (· == '=')

/-- Reads a long option: a name, and perhaps an equals sign and a value. -/
def scanLong (specs : List OptionSpec) (characters : List Char) : OptionScan :=
  let long := characters.dropWhile (· == '-')
  let name := long.takeWhile (· != '=')
  if name = "version".toList then .version
  else if name = "help".toList then .help
  else
    match specs.find? fun spec => spec.name.toList == name with
    | none => .wrong
    | some spec =>
      match spec.kind, long.drop name.length with
      | .flag, _ => .settings [spec.alone] none
      | .value _, [] => .settings [] (some spec)
      | .value _, value => .settings [spec.withValue (plainValue value)] none

/-- Reads a cluster of short options behind those that were found in it before. -/
def scanShort (specs : List OptionSpec) (found : List Setting) : List Char → OptionScan
  | [] => .settings found none
  | letter :: rest =>
    if letter = 'V' then .version
    else if letter = 'h' then .help
    else
      match specs.find? fun spec => spec.short == some letter with
      | none => .wrong
      | some spec =>
        match spec.kind, rest with
        | .flag, _ => scanShort specs (found ++ [spec.alone]) rest
        | .value _, [] => .settings found (some spec)
        | .value _, value => .settings (found ++ [spec.withValue (plainValue value)]) none

/-- The outcome of reading arguments: they ask for the version or for help, or give something. -/
inductive Scan where
  | version
  | help
  | given (given : Given)
deriving DecidableEq, Repr

/-- Goes on with the options that were found, if nothing else came up. -/
def OptionScan.proceed (found : OptionScan)
    (next : List Setting → Option OptionSpec → Option Scan) : Option Scan :=
  match found with
  | wrong => none
  | version => some .version
  | help => some .help
  | settings found pending => next found pending

/-- Takes arguments none of which is an option. -/
def scanFiles : List String → Given → Option Scan
  | [], given => some (.given given)
  | file :: rest, given => (given.withFile? file).bind (scanFiles rest)

/-- Reads the arguments behind a verb; `pending` is an option that waits for its value. -/
def scan (specs : List OptionSpec) (pending : Option OptionSpec) :
    List String → Given → Option Scan
  | [], given => some (.given (given.settle pending))
  | argument :: rest, given =>
    match pending, isValue argument with
    | some spec, true => scan specs none rest (given.add (spec.withValue argument.toList))
    | _, _ =>
      let given := given.settle pending
      match argument.toList with
      | ['-', '-'] => scanFiles rest given
      | '-' :: '-' :: long =>
        (scanLong specs long).proceed fun found pending => scan specs pending rest (given.addAll found)
      | '-' :: letter :: letters =>
        (scanShort specs [] (letter :: letters)).proceed fun found pending =>
          scan specs pending rest (given.addAll found)
      | _ => (given.withFile? argument).bind (scan specs none rest)

/-! ## Verbs -/

namespace Given

def value? (given : Given) (name : String) : Option String :=
  (given.settings.find? fun setting => setting.name == name).bind Setting.value

/-- Whether no option is given twice and none lacks its value. -/
def isComplete (given : Given) : Bool :=
  decide (given.settings.map Setting.name).Nodup &&
    given.settings.all fun setting => setting.value.isSome

end Given

/-- The name of the method that is used if none is named. -/
def defaultMethod : String := "slr1"

def specsOf : (verb : String) → Option (List OptionSpec)
  | "run" => some [⟨"debug", none, .flag⟩]
  | "check" => some []
  | "sets" => some [⟨"csv", none, .value none⟩]
  | "table" => some [⟨"method", none, .value (some defaultMethod)⟩, ⟨"csv", none, .value none⟩]
  | "graph" => some [⟨"output", some 'o', .value none⟩]
  | _ => none

/-- The command of a verb with what its arguments give. -/
def ofGiven (verb : String) (given : Given) : Option Command :=
  if !given.isComplete then none
  else
    match verb, given.file with
    | "run", file => some (.run file (given.value? "debug").isSome)
    | "check", some file => some (.check file)
    | "sets", some file => some (.sets file (given.value? "csv"))
    | "table", some file =>
      match Method.ofName ((given.value? "method").getD defaultMethod) with
      | .ok method => some (.table file method (given.value? "csv"))
      | .error _ => none
    | "graph", some file => some (.graph file (given.value? "output"))
    | _, _ => none

def programName : String := "llslr"

def programVersion : String := "0.1.0"

def ofVerb (verb : String) (arguments : List String) : Option Command :=
  match specsOf verb with
  | none => none
  | some specs =>
    match scan specs none arguments ⟨none, []⟩ with
    | none => none
    | some .version => some (.version (programName ++ "-" ++ verb ++ " "))
    | some .help => some .help
    | some (.given given) => ofGiven verb given

/-- The command of the arguments of `help`: the name of a verb, if anything. -/
def ofHelp : List String → Option Command
  | [] => some .help
  | [verb] => if verb = "help" || (specsOf verb).isSome then some .help else none
  | _ => none

/-- The option before a verb. -/
def leadingSpecs : List OptionSpec := [⟨"verbose", some 'v', .flag⟩]

/-- Reads the arguments of the program; `detailed` tells whether `-v` stood before them. -/
def ofArgumentsFrom (detailed : Bool) : List String → Option Command
  | [] => if detailed then some .nothing else none
  | argument :: rest =>
    match argument.toList with
    | ['-', '-'] => if detailed && rest.isEmpty then some .nothing else none
    | '-' :: '-' :: long =>
      match scanLong [] long with
      | .version => some (.version (programName ++ " " ++ programVersion))
      | .help => some .help
      | _ => none
    | '-' :: letter :: letters =>
      match scanShort leadingSpecs [] (letter :: letters) with
      | .version => some (.version (programName ++ " " ++ programVersion))
      | .help => some .help
      | .settings _ none => ofArgumentsFrom true rest
      | _ => none
    | _ => if argument = "help" then ofHelp rest else ofVerb argument rest

/-- The command of the program's arguments; none if the usage is wrong. -/
def ofArguments (arguments : List String) : Option Command := ofArgumentsFrom false arguments

end Command

end TableParsing
