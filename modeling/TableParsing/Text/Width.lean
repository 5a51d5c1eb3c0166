import TableParsing.Text.Ligature
import TableParsing.Text.Wide

/-!
# Display width

How many columns a text takes in a fixed-width display.  A character by itself
takes two columns if it is a pictograph or a wide character of an East Asian
script, none if it is a combining or invisible one, and one otherwise.
Characters that grow together are counted as the one sign that they make.
Escape sequences that choose a colour are not shown and are not counted.

The characters of an escape sequence are taken off one by one, whether or not
they grow together.  A text in which this takes off more columns than it has is
a text without a width.
-/

namespace TableParsing.Text

/-- The columns that a character takes by itself. -/
def charWidth (character : Char) : Nat :=
  if character.toNat < 0xAD then 1
  else if character.toNat = 0x17D8 then 3
  else if isWidthless character then 0
  else if isWide character || isPictograph character then 2
  else 1

/-! ## Texts -/

/-- What stands behind a character: the opening of the text, and the variation selectors in front of
it. -/
structure Following where
  opening : Opening
  /-- A selector asks for the pictograph of the character before it. -/
  emoji : Bool := false
  /-- A selector asks for the text sign of the character before it. -/
  sign : Bool := false
deriving DecidableEq, Repr

namespace Following

/-- What stands behind the last character of a text. -/
def nothing : Following := { opening := .plain }

/-- Puts an emoji selector in front. -/
def withEmoji (following : Following) : Following :=
  match following.opening with
  | .joinedPictograph | .joinedKeycap => { following with emoji := true }
  | opening =>
    if opening.isLetter then { following with emoji := true }
    else { opening := .plain, emoji := true }

/-- Puts a text selector in front. -/
def withSign (following : Following) : Following :=
  if following.opening.isLetter then { following with sign := true }
  else { opening := .plain, sign := true }

/-- Takes the emoji selector away, when no base for it was found. -/
def withoutEmoji (following : Following) : Following :=
  if following.opening.isLetter then { following with emoji := false } else nothing

/-- The columns of a character that an emoji selector turns into a pictograph. -/
def emojiWidth (following : Following) : Int :=
  match following.opening with
  | .joinedPictograph | .joinedKeycap => 0
  | _ => 2

/-- The columns that an ASCII or control character adds, and what it is for the character before it. -/
def precededByBasic (character : Char) (following : Following) : Int × Following :=
  if character = '\n' then (0, { opening := .lineFeed })
  else if character = '\r' ∧ following = { opening := .lineFeed } then (0, nothing)
  else (1, nothing)

/-- The columns that a character adds in front of an opening. -/
def precededByOther (character : Char) (opening : Opening) : Int × Following :=
  match opening.behindMark? character with
  | some behind => (0, { opening := behind })
  | none =>
    match opening.fuse? character with
    | some (columns, fused) => (columns, { opening := fused })
    | none => (charWidth character, { opening := .ofChar character })

/-- The columns that a character adds to the text behind it, and what it is for the character before
it. -/
def precededBy (character : Char) (following : Following) : Int × Following :=
  if following.emoji && isEmojiBase character then
    (following.emojiWidth, { opening := .pictograph })
  else
    let following := if following.emoji then following.withoutEmoji else following
    if character.toNat ≤ 0xA0 then
      following.precededByBasic character
    else if character = '\uFE0F' then
      (0, following.withEmoji)
    else if character = '\uFE0E' then
      (0, following.withSign)
    else if following.sign && isTextBase character then
      (1, nothing)
    else
      precededByOther character following.opening

end Following

/-- The columns of a text, escape sequences included, and what it is for a character before it. -/
def measure (characters : List Char) : Int × Following :=
  characters.foldr (fun character (columns, following) =>
    let (added, preceded) := following.precededBy character
    (columns + added, preceded)) (0, .nothing)

/-! ## Escape sequences -/

/-- Where a character stands with regard to escape sequences. -/
inductive EscapeState where
  | outside
  /-- Right behind an escape character. -/
  | begun
  /-- Behind an escape character and a bracket. -/
  | inside
deriving DecidableEq, Repr

/-- Whether a character that is not a control takes any column. -/
def isShown (character : Char) : Bool :=
  !(character.toNat < 0x20 || (0x7F ≤ character.toNat && character.toNat < 0xA0)) &&
    charWidth character != 0

/-- The characters of escape sequences that would take a column each: those from the bracket up to the
letter `m`.  The escape character itself is not among them. -/
def escapedColumns : EscapeState → List Char → Nat
  | _, [] => 0
  | .outside, character :: rest =>
    escapedColumns (if character = '\x1b' then .begun else .outside) rest
  | .begun, character :: rest =>
    if character = '[' then 1 + escapedColumns .inside rest else escapedColumns .outside rest
  | .inside, character :: rest =>
    (if isShown character then 1 else 0) +
      escapedColumns (if character = 'm' then .outside else .inside) rest

/-- The columns that a text takes; none if its escape sequences take off more columns than it has. -/
def width? (text : String) : Option Nat :=
  let columns := (measure text.toList).1.toNat
  let escaped := escapedColumns .outside text.toList
  if escaped ≤ columns then some (columns - escaped) else none

/-- The columns that a text takes; a text without a width counts as empty. -/
def width (text : String) : Nat := (width? text).getD 0

end TableParsing.Text
