import TableParsing.Text.CharRange

/-!
# White space

The characters with the Unicode property `White_Space`, and cutting them off the
ends of a text.
-/

namespace TableParsing.Text

/-- The characters with the property `White_Space`. -/
def whiteSpaceRanges : CharRanges :=
  [(0x9, 0xD), (0x20, 0x20), (0x85, 0x85), (0xA0, 0xA0), (0x1680, 0x1680), (0x2000, 0x200A),
   (0x2028, 0x2029), (0x202F, 0x202F), (0x205F, 0x205F), (0x3000, 0x3000)]

def isWhiteSpace (character : Char) : Bool := whiteSpaceRanges.contains character

/-- A list without the members that satisfy a test at its end. -/
def dropWhileEnd (drop : Char → Bool) (characters : List Char) : List Char :=
  (characters.reverse.dropWhile drop).reverse

/-- A text without white space at its end. -/
def trimEnd (text : String) : String := String.ofList (dropWhileEnd isWhiteSpace text.toList)

/-- A text without white space at both ends. -/
def trim (text : String) : String :=
  String.ofList (dropWhileEnd isWhiteSpace (text.toList.dropWhile isWhiteSpace))

end TableParsing.Text
