import TableParsing.Text.Line
import TableParsing.Text.Width

/-!
# Printed tables

A grid is a table of texts; what it says is in its rows.

The rest is layout, for the program's output only: a grid is printed with borders,
every column as wide as its widest line and every row as high as its highest cell,
or as lines of values separated by commas.  In either form it can only be written
if all its texts have a width.
-/

namespace TableParsing.Report

/-- Rows of cells. -/
structure Grid where
  rows : List (List String)
deriving DecidableEq, Repr

/-! ## Lines of a cell -/

/-- A line without the line feed at its end, and without the carriage return before that. -/
def withoutLineEnd (line : List Char) : List Char :=
  match line.reverse with
  | '\n' :: '\r' :: rest => rest.reverse
  | '\n' :: rest => rest.reverse
  | _ => line

/-- The lines of a cell; a line feed at its end begins no further line. -/
def cellLines (cell : String) : List String :=
  (Text.cutAfter '\n' cell.toList).map fun line => String.ofList (withoutLineEnd line)

/-- Whether all lines of a cell have a width. -/
def hasWidth (cell : String) : Bool := (cellLines cell).all fun line => (Text.width? line).isSome

namespace Grid

/-- Whether all cells have a width, so that the grid can be written. -/
def isWritable (grid : Grid) : Bool := grid.rows.all fun row => row.all hasWidth

/-! ## With borders -/

/-- The number of cells in the longest row. -/
def columns (grid : Grid) : Nat := (grid.rows.map List.length).foldl max 0

/-- The width of the widest line in a column. -/
def columnWidth (grid : Grid) (column : Nat) : Nat :=
  let cells := grid.rows.filterMap (·[column]?)
  ((cells.flatMap cellLines).map Text.width).foldl max 0

def widths (grid : Grid) : List Nat := (List.range grid.columns).map grid.columnWidth

/-- The line above, between and below the rows. -/
def border (widths : List Nat) : String :=
  "+" ++ String.join (widths.map fun width => String.ofList (List.replicate (width + 2) '-') ++ "+") ++
    "\n"

/-- A content with spaces behind it up to a width. -/
def pad (width : Nat) (content : String) : String :=
  content ++ String.ofList (List.replicate (width - Text.width content) ' ')

def rowLine (widths : List Nat) (row : List (List String)) (line : Nat) : String :=
  let place (column : Nat) (width : Nat) : String :=
    let content := (row[column]?.bind (·[line]?)).getD ""
    " " ++ pad width content ++ " |"
  "|" ++ String.join (widths.mapIdx place) ++ "\n"

def rowText (widths : List Nat) (row : List String) : String :=
  let cells := row.map cellLines
  let height := (cells.map List.length).foldl max 1
  String.join ((List.range height).map (rowLine widths cells))

/-- The grid with borders. -/
def text (grid : Grid) : String :=
  let widths := grid.widths
  border widths ++ String.join (grid.rows.map fun row => rowText widths row ++ border widths)

/-! ## Separated by commas -/

/-- Whether a value cannot stand without quotes. -/
def needsQuotes (value : String) : Bool :=
  value.toList.any fun character => [',', '"', '\n', '\r'].contains character

/-- A value between double quotes, with the quotes inside it doubled. -/
def quoteValue (value : String) : String :=
  let doubled := value.toList.flatMap fun character =>
    if character == '"' then ['"', '"'] else [character]
  String.ofList ('"' :: (doubled ++ ['"']))

def csvValue (cell : String) : String :=
  let content := "\n".intercalate (cellLines cell)
  if needsQuotes content then quoteValue content else content

/-- The grid as lines of values separated by commas. -/
def csv (grid : Grid) : String :=
  String.join (grid.rows.map fun row => ",".intercalate (row.map csvValue) ++ "\n")

end Grid

end TableParsing.Report
