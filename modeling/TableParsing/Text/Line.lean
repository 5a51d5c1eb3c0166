/-!
# Lines of an input

An input is a sequence of bytes that is cut into lines after each line feed.  A
line is a text if its bytes are UTF-8; otherwise it can be taken from the input
but not be read.
-/

namespace TableParsing.Text

/-- A line of an input, its line feed included. -/
inductive Line where
  | text (content : String)
  /-- Bytes that are not UTF-8. -/
  | undecodable (bytes : List UInt8)
deriving DecidableEq, Repr

namespace Line

def ofBytes (bytes : List UInt8) : Line :=
  match String.fromUTF8? ⟨bytes.toArray⟩ with
  | some content => text content
  | none => undecodable bytes

def bytes : Line → List UInt8
  | text content => content.toUTF8.data.toList
  | undecodable bytes => bytes

end Line

/-- Cuts a list after each occurrence of a mark. -/
def cutAfter {α : Type} [DecidableEq α] (mark : α) : List α → List (List α)
  | [] => []
  | a :: rest =>
    if a = mark then
      [a] :: cutAfter mark rest
    else
      match cutAfter mark rest with
      | [] => [[a]]
      | piece :: pieces => (a :: piece) :: pieces

def linesOfBytes (input : List UInt8) : List Line := (cutAfter 10 input).map Line.ofBytes

def linesOfText (input : String) : List Line :=
  (cutAfter '\n' input.toList).map fun characters => .text (String.ofList characters)

/-- The bytes of an input that is given by its lines. -/
def bytesOfLines (lines : List Line) : List UInt8 := lines.flatMap Line.bytes

theorem flatten_cutAfter {α : Type} [DecidableEq α] (mark : α) (input : List α) :
    (cutAfter mark input).flatten = input := by
  fun_induction cutAfter mark input with
  | case1 => rfl
  | case2 rest ih => simp [ih]
  | case3 a rest h pieces ih => simp_all
  | case4 a rest h piece pieces cut ih => simp_all

end TableParsing.Text
