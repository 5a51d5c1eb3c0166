import TableParsing.Symbol

/-!
# Input words

A parser reads a list of atoms.  It is a word of terminals if every atom stands
for a terminal; an atom that stands for anything else is no input at all.
-/

namespace TableParsing.Word

/-- The terminals that a list of atoms spells; none if some atom stands for another kind of symbol. -/
def ofAtoms? : List String → Option (List Symbol)
  | [] => some []
  | atom :: rest =>
    match Symbol.classify atom with
    | .terminal spelling => (ofAtoms? rest).map (.terminal spelling :: ·)
    | _ => none

/-- A text as atoms of one character each. -/
def split (text : String) : List String := text.toList.map String.singleton

end TableParsing.Word
