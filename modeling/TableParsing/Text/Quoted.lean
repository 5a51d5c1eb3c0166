import TableParsing.Text.Unprintable

/-!
# Quoted texts

Messages show foreign text between double quotes.  Quotes and backslashes are
escaped by a backslash, the common controls have a letter of their own, and a
character that has no shape of its own to print is written by its code point.
-/

namespace TableParsing.Text

/-- The escape that writes a character by its code point in hexadecimal digits. -/
def codePointEscape (character : Char) : List Char :=
  ['\\', 'u', '\x7b'] ++ Nat.toDigits 16 character.toNat ++ ['\x7d']

/-- A character as it stands in a quoted text. -/
def quotedChar (character : Char) : List Char :=
  match character with
  | '"' => ['\\', '"']
  | '\\' => ['\\', '\\']
  | '\n' => ['\\', 'n']
  | '\r' => ['\\', 'r']
  | '\t' => ['\\', 't']
  | '\x00' => ['\\', '0']
  | other => if isUnprintable other then codePointEscape other else [other]

/-- A text between double quotes, with everything escaped that needs it. -/
def quoted (text : String) : String :=
  String.ofList ('"' :: (text.toList.flatMap quotedChar ++ ['"']))

end TableParsing.Text
