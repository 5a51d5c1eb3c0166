import TableParsing.GrammarText.ProductionLine

/-!
# What can be wrong with a grammar text

The causes for which the text of a grammar is refused, and their messages.
-/

namespace TableParsing.GrammarText

/-- The message about bytes that are no text. -/
def undecodableMessage : String := "stream did not contain valid UTF-8"

/-- The message about an input that cannot be read on, with the cause of it. -/
def inputMessage (cause : String) : String := "Reader error: " ++ cause

/-- Why a grammar cannot be read. -/
inductive ReaderError where
  /-- A line that was to be read is not UTF-8. -/
  | undecodable
  | missingCount
  | invalidCount (text : String)
  | missingLines (expected found : Nat)
  /-- A line, with its number from 1, is no production line. -/
  | malformed (line : Nat) (text : String)
  /-- A line, with its number from 1, has an alternative that is no production. -/
  | production (line : Nat) (error : GrammarError)
  /-- The productions of all lines do not make a grammar. -/
  | grammar (error : GrammarError)
deriving DecidableEq, Repr

namespace ReaderError

def message : ReaderError → String
  | undecodable => inputMessage undecodableMessage
  | missingCount => "Reader error: missing production count"
  | invalidCount text => "Reader error: invalid production count " ++ Text.quoted text
  | missingLines expected found =>
    "Reader error: expected " ++ toString expected ++ " production lines, got " ++ toString found
  | malformed line text => "Reader error on line " ++ toString line ++ ": " ++ text
  | production line error => "Reader error on line " ++ toString line ++ ": " ++ error.message
  | grammar error => "Reader error: " ++ error.message

/-- The message of the error that lies below a reader error, if one does. -/
def causeMessage? : ReaderError → Option String
  | undecodable => some undecodableMessage
  | production _ error => some error.message
  | grammar error => some error.message
  | _ => none

end ReaderError

end TableParsing.GrammarText
