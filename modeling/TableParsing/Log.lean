/-!
# Log records

What the stages report about their work.  A stage does not write its records
anywhere: they are read off its result.
-/

namespace TableParsing

/-- How detailed or how grave a record is. -/
inductive Log.Level where
  | trace
  | debug
  | warn
deriving DecidableEq, Repr

def Log.Level.name : Log.Level → String
  | .trace => "TRACE"
  | .debug => "DEBUG"
  | .warn => "WARN"

structure Log.Record where
  level : Log.Level
  text : String
deriving DecidableEq, Repr

/-- The record as one line: the level, a space and the text. -/
def Log.Record.line (record : Log.Record) : String := record.level.name ++ " " ++ record.text

end TableParsing
