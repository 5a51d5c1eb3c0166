/-!
# Parser combinators

A parser takes characters from the front of an input, and combinators put parsers
together.  Which library they come from is left open: `Combinators` lists what it has
to offer, and `Combinators.Documented` what it says about this.

A parser replies with a value and the characters that it leaves, or with an error.
In either case it tells whether it has committed itself, which it does by consuming
something.  A repetition goes on until the repeated parser fails without that;
another failure is one of the whole repetition.

An error has a place, which is known by the characters that are left there.  In a
text about the error it stands as a line and a column.
-/

namespace TableParsing

/-! ## Replies -/

/-- What a parser replies to the characters that are left of an input. -/
inductive Reply (ε α : Type) where
  | ok (committed : Bool) (value : α) (rest : List Char)
  | error (committed : Bool) (error : ε)
deriving DecidableEq, Repr

namespace Reply

variable {ε ε' α β : Type}

def map (change : α → β) : Reply ε α → Reply ε β
  | ok committed value rest => ok committed (change value) rest
  | error committed fault => error committed fault

def mapError (change : ε → ε') : Reply ε α → Reply ε' α
  | ok committed value rest => ok committed value rest
  | error committed fault => error committed (change fault)

/-- A reply behind another one, which was committed or not. -/
def after (committed : Bool) : Reply ε α → Reply ε α
  | ok own value rest => ok (committed || own) value rest
  | error own fault => error (committed || own) fault

/-- Goes on with the value of a reply and the characters behind it. -/
def andThen (reply : Reply ε α) (next : α → List Char → Reply ε β) : Reply ε β :=
  match reply with
  | ok committed value rest => (next value rest).after committed
  | error committed fault => error committed fault

end Reply

/-- What comes of a parser that is applied again and again, consuming something each time, until it
fails. -/
inductive Repeats {ε α : Type} (parser : List Char → Reply ε α) :
    List Char → Reply ε (List α) → Prop
  | stop {input : List Char} {fault : ε} (h : parser input = .error false fault) :
      Repeats parser input (.ok false [] input)
  | fail {input : List Char} {fault : ε} (h : parser input = .error true fault) :
      Repeats parser input (.error true fault)
  | more {input rest : List Char} {committed : Bool} {value : α} {later : Reply ε (List α)}
      (h : parser input = .ok committed value rest) (hless : rest.length < input.length)
      (hlater : Repeats parser rest later) :
      Repeats parser input ((later.map (value :: ·)).after committed)

/-- What comes of the items behind the first one of a list with separators, one of which may stand at
the end of the list. -/
inductive Separated {ε α β : Type} (item : List Char → Reply ε α)
    (separator : List Char → Reply ε β) : List Char → Reply ε (List α) → Prop
  | last {input : List Char} {fault : ε} (h : separator input = .error false fault) :
      Separated item separator input (.ok false [] input)
  | closed {input rest : List Char} {committed : Bool} {mark : β} {fault : ε}
      (h : separator input = .ok committed mark rest) (hitem : item rest = .error false fault) :
      Separated item separator input (.ok committed [] rest)
  | more {input middle rest : List Char} {committed own : Bool} {mark : β} {value : α}
      {later : Reply ε (List α)} (h : separator input = .ok committed mark middle)
      (hitem : item middle = .ok own value rest) (hless : rest.length < input.length)
      (hlater : Separated item separator rest later) :
      Separated item separator input ((later.map (value :: ·)).after (committed || own))
  | badSeparator {input : List Char} {fault : ε} (h : separator input = .error true fault) :
      Separated item separator input (.error true fault)
  | badItem {input rest : List Char} {committed : Bool} {mark : β} {fault : ε}
      (h : separator input = .ok committed mark rest) (hitem : item rest = .error true fault) :
      Separated item separator input (.error true fault)

/-! ## Places -/

/-- A line and a column of an input, from 1. -/
structure Position where
  line : Nat
  column : Nat
deriving DecidableEq, Repr

namespace Position

def first : Position := ⟨1, 1⟩

/-- The position behind a character. -/
def advance (position : Position) (character : Char) : Position :=
  if character = '\n' then ⟨position.line + 1, 1⟩ else ⟨position.line, position.column + 1⟩

/-- The position behind the first characters of an input. -/
def behind (front : List Char) : Position := front.foldl advance first

def text (position : Position) : String :=
  "line: " ++ toString position.line ++ ", column: " ++ toString position.column

end Position

/-! ## Combinators -/

/-- What a library of parser combinators has to offer. -/
structure Combinators where
  Parser : Type → Type
  /-- The reply of a parser; the place of an error is given by the characters left there. -/
  reply {α : Type} : Parser α → List Char → Reply (List Char) α
  /-- The value of an input and what is left behind it, or the text of an error. -/
  parse {α : Type} : Parser α → List Char → Except String (α × List Char)
  satisfy : (Char → Bool) → Parser Char
  eof : Parser Unit
  map {α β : Type} : (α → β) → Parser α → Parser β
  /-- The second parser behind the first one, whose value is dropped. -/
  skipThen {α β : Type} : Parser α → Parser β → Parser β
  pair {α β : Type} : Parser α → Parser β → Parser (α × β)
  quadruple {α β γ δ : Type} :
    Parser α → Parser β → Parser γ → Parser δ → Parser (α × β × γ × δ)
  /-- Says what a parser expects, for the texts of errors. -/
  expected {α : Type} : Parser α → String → Parser α
  many1 : Parser Char → Parser String
  skipMany {α : Type} : Parser α → Parser Unit
  skipMany1 {α : Type} : Parser α → Parser Unit
  sepEndBy1 {α β : Type} : Parser α → Parser β → Parser (List α)

/-- What the library says about its combinators. -/
structure Combinators.Documented (library : Combinators) : Prop where
  /-- A character that passes the test is consumed. -/
  satisfy_cons : ∀ {test : Char → Bool} {character : Char}, test character = true → ∀ rest,
    library.reply (library.satisfy test) (character :: rest) = .ok true character rest
  /-- Before another character, and at the end, there is an error. -/
  satisfy_error : ∀ {test : Char → Bool} {input : List Char},
    (∀ character ∈ input.head?, test character = false) →
      library.reply (library.satisfy test) input = .error false input
  /-- The end of the input is found there and nowhere else. -/
  eof_nil : library.reply library.eof [] = .ok false () []
  eof_cons : ∀ character rest,
    library.reply library.eof (character :: rest) = .error false (character :: rest)
  /-- The value is changed and nothing else. -/
  map : ∀ {α β : Type} (change : α → β) (parser : library.Parser α) (input : List Char),
    library.reply (library.map change parser) input = (library.reply parser input).map change
  /-- Parsers in a sequence go on where the one before has stopped; the first error is theirs. -/
  skipThen : ∀ {α β : Type} (first : library.Parser α) (second : library.Parser β)
    (input : List Char), library.reply (library.skipThen first second) input =
      (library.reply first input).andThen fun _ rest => library.reply second rest
  pair : ∀ {α β : Type} (first : library.Parser α) (second : library.Parser β)
    (input : List Char), library.reply (library.pair first second) input =
      (library.reply first input).andThen fun a rest => (library.reply second rest).map fun b => (a, b)
  quadruple : ∀ {α β γ δ : Type} (first : library.Parser α) (second : library.Parser β)
    (third : library.Parser γ) (fourth : library.Parser δ) (input : List Char),
    library.reply (library.quadruple first second third fourth) input =
      (library.reply first input).andThen fun a rest => (library.reply second rest).andThen
        fun b rest => (library.reply third rest).andThen
          fun c rest => (library.reply fourth rest).map fun d => (a, b, c, d)
  /-- What is expected changes the text of an error only. -/
  expected : ∀ {α : Type} (parser : library.Parser α) (what : String) (input : List Char),
    library.reply (library.expected parser what) input = library.reply parser input
  /-- One or more characters are collected. -/
  many1 : ∀ {parser : library.Parser Char} {input rest : List Char} {committed : Bool}
    {first : Char} {later : Reply (List Char) (List Char)},
    library.reply parser input = .ok committed first rest →
      Repeats (library.reply parser) rest later → library.reply (library.many1 parser) input =
        (later.map fun others => String.ofList (first :: others)).after committed
  many1_error : ∀ {parser : library.Parser Char} {input place : List Char} {committed : Bool},
    library.reply parser input = .error committed place →
      library.reply (library.many1 parser) input = .error committed place
  /-- The values of a repetition are dropped. -/
  skipMany : ∀ {α : Type} {parser : library.Parser α} {input : List Char}
    {all : Reply (List Char) (List α)}, Repeats (library.reply parser) input all →
      library.reply (library.skipMany parser) input = all.map fun _ => ()
  skipMany1 : ∀ {α : Type} {parser : library.Parser α} {input rest : List Char} {committed : Bool}
    {first : α} {later : Reply (List Char) (List α)},
    library.reply parser input = .ok committed first rest →
      Repeats (library.reply parser) rest later →
        library.reply (library.skipMany1 parser) input = (later.map fun _ => ()).after committed
  skipMany1_error : ∀ {α : Type} {parser : library.Parser α} {input place : List Char}
    {committed : Bool}, library.reply parser input = .error committed place →
      library.reply (library.skipMany1 parser) input = .error committed place
  /-- One or more items are collected, and the separators between them and at the end are dropped. -/
  sepEndBy1 : ∀ {α β : Type} {item : library.Parser α} {separator : library.Parser β}
    {input rest : List Char} {committed : Bool} {first : α} {later : Reply (List Char) (List α)},
    library.reply item input = .ok committed first rest →
      Separated (library.reply item) (library.reply separator) rest later →
        library.reply (library.sepEndBy1 item separator) input =
          (later.map fun others => first :: others).after committed
  sepEndBy1_error : ∀ {α β : Type} {item : library.Parser α} {separator : library.Parser β}
    {input place : List Char} {committed : Bool},
    library.reply item input = .error committed place →
      library.reply (library.sepEndBy1 item separator) input = .error committed place
  /-- An input is parsed from its beginning on, and not always to its end. -/
  parse_ok : ∀ {α : Type} {parser : library.Parser α} {input rest : List Char} {committed : Bool}
    {value : α}, library.reply parser input = .ok committed value rest →
      library.parse parser input = .ok (value, rest)
  /-- The text of an error begins with the position of its place. -/
  parse_error : ∀ {α : Type} {parser : library.Parser α} {front place : List Char}
    {committed : Bool}, library.reply parser (front ++ place) = .error committed place →
      ∃ details, library.parse parser (front ++ place) =
        .error ("Parse error at " ++ (Position.behind front).text ++ "\n" ++ details)

end TableParsing
