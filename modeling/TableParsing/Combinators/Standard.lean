import TableParsing.Combinators.Basic

/-!
# The standard combinators

Parsers as functions from the characters that are left to a reply.  An error keeps
what the failed parser expected, so that the texts of errors can be made: the
program reads grammars with these combinators.
-/

namespace TableParsing

namespace Standard

/-- An error, with what was expected, if anything was. -/
structure Failure where
  place : List Char
  expected : Option String
deriving DecidableEq, Repr

def Parser (α : Type) : Type := List Char → Reply Failure α

variable {α β γ δ : Type}

/-! ## Single characters -/

def satisfy (test : Char → Bool) : Parser Char
  | [] => .error false ⟨[], none⟩
  | character :: rest =>
    if test character then .ok true character rest else .error false ⟨character :: rest, none⟩

def eof : Parser Unit
  | [] => .ok false () []
  | character :: rest => .error false ⟨character :: rest, some "end of input"⟩

/-! ## Sequences -/

def map (change : α → β) (parser : Parser α) : Parser β := fun input => (parser input).map change

def andThen (first : Parser α) (second : α → Parser β) : Parser β := fun input =>
  (first input).andThen second

def pair (first : Parser α) (second : Parser β) : Parser (α × β) :=
  andThen first fun a => map (fun b => (a, b)) second

def quadruple (first : Parser α) (second : Parser β) (third : Parser γ) (fourth : Parser δ) :
    Parser (α × β × γ × δ) :=
  andThen first fun a => andThen second fun b => andThen third fun c =>
    map (fun d => (a, b, c, d)) fourth

/-- A parser that has not consumed anything when it fails expected something else altogether. -/
def expected (parser : Parser α) (what : String) : Parser α := fun input =>
  match parser input with
  | .error false failure => .error false ⟨failure.place, some what⟩
  | reply => reply

/-! ## Repetitions -/

/-- Applies a parser until it fails, or until it consumes nothing. -/
def repeated (parser : Parser α) (input : List Char) : Reply Failure (List α) :=
  match parser input with
  | .error false _ => .ok false [] input
  | .error true failure => .error true failure
  | .ok committed value rest =>
    if _h : rest.length < input.length then
      ((repeated parser rest).map (value :: ·)).after committed
    else .ok committed [value] rest
termination_by input.length

/-- What stands behind an item of a list with separators. -/
def separated (item : Parser α) (separator : Parser β) (input : List Char) :
    Reply Failure (List α) :=
  match separator input with
  | .error false _ => .ok false [] input
  | .error true failure => .error true failure
  | .ok committed _ middle =>
    match item middle with
    | .error false _ => .ok committed [] middle
    | .error true failure => .error true failure
    | .ok own value rest =>
      if _h : rest.length < input.length then
        ((separated item separator rest).map (value :: ·)).after (committed || own)
      else .ok (committed || own) [value] rest
termination_by input.length

def many1 (parser : Parser Char) : Parser String :=
  andThen parser fun first => map (fun others => String.ofList (first :: others)) (repeated parser)

def skipMany (parser : Parser α) : Parser Unit := map (fun _ => ()) (repeated parser)

def skipMany1 (parser : Parser α) : Parser Unit := andThen parser fun _ => skipMany parser

def sepEndBy1 (item : Parser α) (separator : Parser β) : Parser (List α) :=
  andThen item fun first => map (first :: ·) (separated item separator)

/-! ## Texts of errors -/

/-- What was found at the place of an error, and what was expected there. -/
def Failure.details (failure : Failure) : String :=
  let found := match failure.place with
    | character :: _ => "`" ++ String.singleton character ++ "`"
    | [] => "end of input"
  let expectation := match failure.expected with
    | some what => "Expected " ++ what ++ "\n"
    | none => ""
  "Unexpected " ++ found ++ "\n" ++ expectation

/-- The text of an error in an input. -/
def Failure.text (input : List Char) (failure : Failure) : String :=
  let front := input.take (input.length - failure.place.length)
  "Parse error at " ++ (Position.behind front).text ++ "\n" ++ failure.details

def parse (parser : Parser α) (input : List Char) : Except String (α × List Char) :=
  match parser input with
  | .ok _ value rest => .ok (value, rest)
  | .error _ failure => .error (failure.text input)

end Standard

/-- The standard combinators. -/
def Combinators.standard : Combinators where
  Parser := Standard.Parser
  reply parser input := (parser input).mapError Standard.Failure.place
  parse := Standard.parse
  satisfy := Standard.satisfy
  eof := Standard.eof
  map := Standard.map
  skipThen first second := Standard.andThen first fun _ => second
  pair := Standard.pair
  quadruple := Standard.quadruple
  expected := Standard.expected
  many1 := Standard.many1
  skipMany := Standard.skipMany
  skipMany1 := Standard.skipMany1
  sepEndBy1 := Standard.sepEndBy1

end TableParsing
