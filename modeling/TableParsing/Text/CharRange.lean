/-!
# Classes of characters as ranges of code points

The character classes of Unicode that the library needs are tables of inclusive
ranges of code points.
-/

namespace TableParsing.Text

/-- Inclusive ranges of code points. -/
abbrev CharRanges := List (Nat × Nat)

def CharRanges.contains (ranges : CharRanges) (character : Char) : Bool :=
  ranges.any fun (first, last) => first ≤ character.toNat && character.toNat ≤ last

end TableParsing.Text
