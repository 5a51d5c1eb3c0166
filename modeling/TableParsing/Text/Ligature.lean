import TableParsing.Text.Emoji
import TableParsing.Text.Widthless

/-!
# Ligatures

Some characters are shown as one sign when they stand side by side: a flag, a
pictograph with a skin tone, pictographs behind a zero width joiner, an Arabic
lam with the alef after it, and a few pairs of other scripts.

Texts are measured from their end.  An `Opening` says what the text behind a
character begins with, as far as it matters for the character, and
`Opening.fuse?` tells how a character grows together with it.
-/

namespace TableParsing.Text

/-! ## Classes of letters -/

/-- The Arabic letters that are a form of lam. -/
def isLam (character : Char) : Bool :=
  CharRanges.contains
    [(0x644, 0x644), (0x6B5, 0x6B8), (0x76A, 0x76A), (0x8A6, 0x8A6), (0x8C7, 0x8C7)] character

/-- The Arabic letters that are a form of alef. -/
def isAlef (character : Char) : Bool :=
  CharRanges.contains
    [(0x622, 0x623), (0x625, 0x625), (0x627, 0x627), (0x671, 0x673), (0x675, 0x675),
     (0x773, 0x774), (0x870, 0x882)] character

/-- Widthless characters that keep two Arabic letters from joining. -/
def separatingRanges : CharRanges :=
  [(0x605, 0x605), (0x890, 0x891), (0x8E2, 0x8E2), (0x9BE, 0x9BE), (0x9D7, 0x9D7), (0xB3E, 0xB3E),
   (0xB57, 0xB57), (0xBBE, 0xBBE), (0xBD7, 0xBD7), (0xCC0, 0xCC0), (0xCC2, 0xCC2), (0xCC7, 0xCC8),
   (0xCCA, 0xCCB), (0xCD5, 0xCD6), (0xD3E, 0xD3E), (0xD4E, 0xD4E), (0xD57, 0xD57), (0xDCF, 0xDCF),
   (0xDDF, 0xDDF), (0x1160, 0x11FF), (0x180E, 0x180E), (0x1B35, 0x1B35), (0x1B3B, 0x1B3B),
   (0x1B3D, 0x1B3D), (0x1B43, 0x1B43), (0x200C, 0x200D), (0x2065, 0x2069), (0x302E, 0x302F),
   (0x3164, 0x3164), (0xA8FA, 0xA8FA), (0xD7B0, 0xD7C6), (0xD7CB, 0xD7FB), (0xFF9E, 0xFFA0),
   (0xFFF0, 0xFFF8), (0x111C2, 0x111C3), (0x1133E, 0x1133E), (0x11357, 0x11357), (0x114B0, 0x114B0),
   (0x114BD, 0x114BD), (0x115AF, 0x115AF), (0x11930, 0x11930), (0x1193F, 0x1193F),
   (0x11941, 0x11941), (0x11A3A, 0x11A3A), (0x11A84, 0x11A89), (0x11D46, 0x11D46),
   (0x11F02, 0x11F02), (0x1D165, 0x1D165), (0x1D16E, 0x1D172), (0xE0000, 0xE0000),
   (0xE0002, 0xE001F), (0xE0080, 0xE00FF), (0xE01F0, 0xE0FFF)]

/-- Whether a character between a lam and an alef does not part them. -/
def isJoiningMark (character : Char) : Bool :=
  isWidthless character && !separatingRanges.contains character

/-- The consonants of Tifinagh. -/
def isTifinaghConsonant (character : Char) : Bool :=
  CharRanges.contains [(0x2D31, 0x2D65), (0x2D6F, 0x2D6F)] character

/-- The Khmer letters that have a subscript form. -/
def isKhmerLetter (character : Char) : Bool :=
  CharRanges.contains
    [(0x1780, 0x1782), (0x1784, 0x1787), (0x1789, 0x178C), (0x178E, 0x1793), (0x1795, 0x1798),
     (0x179B, 0x179D), (0x17A0, 0x17A0), (0x17A2, 0x17A2), (0x17A7, 0x17A7), (0x17AB, 0x17AC),
     (0x17AF, 0x17AF)] character

/-- The marks, ignored by default, that do not part the characters of a ligature. -/
def isIgnoredMark (character : Char) : Bool :=
  CharRanges.contains
    [(0x34F, 0x34F), (0x17B4, 0x17B5), (0x180B, 0x180D), (0x180F, 0x180F), (0x200D, 0x200D),
     (0xFE00, 0xFE0F), (0xE0100, 0xE01EF)] character

/-- The zero width joiner. -/
def joiner : Char := '\u200D'

/-! ## Openings -/

/-- What a text begins with, as far as it matters for the width of a character before it.  Where a
letter can be `joined`, this tells whether a joiner stands before it. -/
inductive Opening where
  /-- Nothing that grows together with a character before it. -/
  | plain
  | lineFeed
  | skinTone
  | indicator
  /-- Two or more regional indicators. -/
  | indicators
  | pictograph
  /-- A joiner before a pictograph. -/
  | joinedPictograph
  /-- A keycap sign and then a joiner before a pictograph. -/
  | joinedKeycap
  /-- One regional indicator, and then a joiner before a pictograph. -/
  | joinedIndicator
  /-- An even number of regional indicators, and then a joiner before a pictograph. -/
  | joinedEvenIndicators
  /-- An odd number, above one, of regional indicators, and then a joiner before a pictograph. -/
  | joinedOddIndicators
  /-- The end of the tags of a flag, with the letters and then the digits that were found before it,
  and then a joiner before a pictograph. -/
  | joinedTags (letters digits : Nat)
  | alef
  | lamed (joined : Bool)
  | ya (joined : Bool)
  /-- The vowel sign that the Buginese letter ya takes in. -/
  | vowelAndYa
  | tifinagh (joined : Bool)
  /-- The Tifinagh consonant joiner before a consonant. -/
  | tifinaghJoined
  /-- The second of two Lisu tone letters. -/
  | tone
  | orkhonI (joined : Bool)
  | khmerLetter
deriving DecidableEq, Repr

namespace Opening

/-- The opening that a character makes by itself. -/
def ofChar (character : Char) : Opening :=
  let code := character.toNat
  if isPictograph character then pictograph
  else if isSkinTone character then skinTone
  else if isRegionalIndicator character then indicator
  else if isAlef character then alef
  else if isTifinaghConsonant character then tifinagh false
  else if isKhmerLetter character then khmerLetter
  else if code = 0x5DC then lamed false
  else if code = 0x1A10 then ya false
  else if code = 0xA4FC ∨ code = 0xA4FD then tone
  else if code = 0x10C03 then orkhonI false
  else plain

/-- Whether an opening is the second part of a ligature of letters. -/
def isLetter : Opening → Bool
  | alef | lamed _ | ya _ | vowelAndYa | tifinagh _ | tifinaghJoined | tone | orkhonI _
  | khmerLetter => true
  | _ => false

/-- An opening of letters behind a joiner or another mark that is ignored; none if the mark ends the
ligature. -/
def behindMark? (character : Char) (opening : Opening) : Option Opening :=
  if opening.isLetter && opening != alef && isIgnoredMark character then
    if character = joiner then
      match opening with
      | lamed _ => some (lamed true)
      | ya _ => some (ya true)
      | tifinagh _ => some (tifinagh true)
      | orkhonI _ => some (orkhonI true)
      | other => some other
    else some opening
  else none

/-- How a character grows together with the opening of the tags of a flag. -/
def fuseTags? (character : Char) (letters digits : Nat) : Option (Int × Opening) :=
  let code := character.toNat
  if 0xE0061 ≤ code ∧ code ≤ 0xE007A then
    if digits = 0 ∧ letters < 6 then some (0, joinedTags (letters + 1) 0) else none
  else if 0xE0030 ≤ code ∧ code ≤ 0xE0039 then
    if (digits = 0 ∧ letters ≤ 4) ∨ digits = 1 ∨ digits = 2 then
      some (0, joinedTags letters (digits + 1))
    else none
  else if code = 0x1F3F4 ∧ ((digits = 0 ∧ 3 ≤ letters) ∨ digits = 3) then some (0, pictograph)
  else none

/-- How a character grows together with the text behind it: the columns that it adds, which may be
negative, and the opening that the two make; none if it stands by itself. -/
def fuse? (character : Char) (opening : Opening) : Option (Int × Opening) :=
  let code := character.toNat
  match opening with
  | skinTone =>
    if isSkinToneBase character then some (0, pictograph)
    else if character = joiner then some (0, joinedPictograph)
    else none
  | indicator => if isRegionalIndicator character then some (1, indicators) else none
  | indicators =>
    if isRegionalIndicator character then some (1, indicators)
    else if character = joiner then some (0, joinedPictograph)
    else none
  | pictograph => if character = joiner then some (0, joinedPictograph) else none
  | joinedPictograph =>
    if code = 0x20E3 then some (0, joinedKeycap)
    else if isRegionalIndicator character then some (1, joinedIndicator)
    else if isSkinTone character then some (0, skinTone)
    else if code = 0xE007F then some (0, joinedTags 0 0)
    else if isPictograph character then some (0, pictograph)
    else none
  | joinedIndicator => if isRegionalIndicator character then some (-1, joinedEvenIndicators) else none
  | joinedEvenIndicators =>
    if isRegionalIndicator character then some (3, joinedOddIndicators)
    else if character = joiner then some (0, joinedPictograph)
    else none
  | joinedOddIndicators =>
    if isRegionalIndicator character then some (-1, joinedEvenIndicators)
    else if character = joiner then some (0, joinedPictograph)
    else none
  | joinedTags letters digits => fuseTags? character letters digits
  | alef =>
    if isLam character then some (0, plain)
    else if isJoiningMark character then some (0, alef)
    else none
  | lamed true => if code = 0x5D0 then some (0, plain) else none
  | ya true => if code = 0x1A17 then some (0, vowelAndYa) else none
  | vowelAndYa => if code = 0x1A15 then some (0, plain) else none
  | tifinagh joined =>
    if code = 0x2D7F then some (1, tifinaghJoined)
    else if joined && isTifinaghConsonant character then some (0, plain)
    else none
  | tifinaghJoined => if isTifinaghConsonant character then some (-1, plain) else none
  | tone => if 0xA4F8 ≤ code ∧ code ≤ 0xA4FB then some (0, plain) else none
  | orkhonI true => if code = 0x10C32 then some (0, plain) else none
  | khmerLetter => if code = 0x17D2 then some (-1, plain) else none
  | _ => none

end Opening

end TableParsing.Text
