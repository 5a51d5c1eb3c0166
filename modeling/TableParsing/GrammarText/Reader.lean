import TableParsing.Grammar.Basic
import TableParsing.GrammarText.Error
import TableParsing.Log
import TableParsing.Text.Line

/-!
# Reading grammars

A grammar text begins with the number of its production lines, on a line of its
own that blank lines may precede; then follow that many production lines.  The
productions make a grammar with the default start symbol.

Reading consumes whole lines and leaves the rest of the input untouched, also
when it fails: a `Reading` is an outcome together with the lines that are left.

The combinators that parse the production lines are those of a library.
-/

namespace TableParsing.GrammarText

open Text (Line)

/-- The outcome of reading from the lines of an input, with the lines that are left. -/
structure Reading (α : Type) where
  outcome : Except ReaderError α
  rest : List Line

/-! ## Numbers -/

/-- The first number that is too large for a count. -/
def countLimit : Nat := 18446744073709551616

/-- The value of decimal digits, read on from a value. -/
def digitsValue? : (value : Nat) → List Char → Option Nat
  | value, [] => some value
  | value, digit :: rest =>
    if digit.isDigit then digitsValue? (10 * value + (digit.toNat - 48)) rest else none

/-- The number that some characters spell: decimal digits, with a plus sign before them or not, for a
number below the limit. -/
def count? (characters : List Char) : Option Nat :=
  let digits := match characters with
    | '+' :: digits => digits
    | digits => digits
  if digits.isEmpty then none else (digitsValue? 0 digits).filter (· < countLimit)

/-! ## Lines -/

variable (library : Combinators)

/-- The productions of one line of a text. -/
def productionsOfLine (line : String) (number : Nat) : Except ReaderError (List Production) :=
  match library.parse (productionLine library) (bodyOf line) with
  | .error text => .error (.malformed number (Text.trimEnd text))
  | .ok (parsed, _) =>
    match parsed.productions with
    | .error error => .error (.production number error)
    | .ok productions => .ok productions

/-- A number of production lines, with the number of the line that told it. -/
structure Count where
  value : Nat
  line : Nat
deriving DecidableEq, Repr

/-- Reads the count from lines of which the first has the number `number`. -/
def readCount (number : Nat) : List Line → Reading Count
  | [] => ⟨.error .missingCount, []⟩
  | .undecodable _ :: rest => ⟨.error .undecodable, rest⟩
  | .text content :: rest =>
    let trimmed := Text.trim content
    if trimmed.isEmpty then
      readCount (number + 1) rest
    else
      match count? trimmed.toList with
      | some value => ⟨.ok ⟨value, number⟩, rest⟩
      | none => ⟨.error (.invalidCount trimmed), rest⟩

/-- Reads production lines after the line `line`, up to `expected` of them, when `found` have been
read before and gave `productions`. -/
def readLines (line expected found : Nat) (productions : List Production) :
    List Line → Reading (List Production)
  | [] =>
    if found = expected then ⟨.ok productions, []⟩
    else ⟨.error (.missingLines expected found), []⟩
  | next :: rest =>
    if found = expected then
      ⟨.ok productions, next :: rest⟩
    else
      match next with
      | .undecodable _ => ⟨.error .undecodable, rest⟩
      | .text content =>
        match productionsOfLine library content (line + 1) with
        | .error error => ⟨.error error, rest⟩
        | .ok more => readLines (line + 1) expected (found + 1) (productions ++ more) rest

/-! ## Grammars -/

/-- The productions of a text, before they are made a grammar. -/
structure Listing where
  /-- The number of production lines. -/
  lines : Nat
  productions : List Production
deriving DecidableEq, Repr

def Listing.record (listing : Listing) : Log.Record where
  level := .debug
  text := "Read " ++ toString listing.productions.length ++ " productions from " ++
    toString listing.lines ++ " lines"

/-- Reads the count and the production lines that it announces. -/
def readListing (lines : List Line) : Reading Listing :=
  match readCount 1 lines with
  | ⟨.error error, rest⟩ => ⟨.error error, rest⟩
  | ⟨.ok count, rest⟩ =>
    let reading := readLines library count.line count.value 0 [] rest
    ⟨reading.outcome.map fun productions => ⟨count.value, productions⟩, reading.rest⟩

def Listing.grammar (listing : Listing) : Except ReaderError Grammar :=
  (Grammar.checkDefault listing.productions).mapError .grammar

/-- Reads a grammar from the lines of an input. -/
def readGrammar (lines : List Line) : Reading Grammar :=
  let reading := readListing library lines
  ⟨reading.outcome.bind Listing.grammar, reading.rest⟩

/-- What is reported while a grammar is read. -/
def readingRecords (lines : List Line) : List Log.Record :=
  match (readListing library lines).outcome with
  | .ok listing => [listing.record]
  | .error _ => []

/-- The grammar of a text; what stands behind its last production line does not count. -/
def parse (text : String) : Except ReaderError Grammar :=
  (readGrammar library (Text.linesOfText text)).outcome

end TableParsing.GrammarText
