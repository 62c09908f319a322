import EntityModel.Text.Blank
import EntityModel.Text.Width

/-!
# Tables of text

A header and rows, drawn with plain characters. A column is as wide as its widest line, every cell
has a blank on each side, and a cell of several lines makes its row as high.
-/

namespace EntityModel

/-- A table. Each row has as many cells as the header. -/
structure Table where
  header : List String
  rows : List (List String)

namespace Table

/-- The lines of a cell. -/
def cellLines (cell : String) : List (List Char) := cell.toList.splitOn '\n'

/-- The width of a cell, that of its widest line. -/
def cellWidth (cell : String) : Nat := ((cellLines cell).map Text.width).foldl max 0

/-- The widths of the columns. -/
def widths (t : Table) : List Nat :=
  t.rows.foldl (fun ws row => List.zipWith max ws (row.map cellWidth)) (t.header.map cellWidth)

/-- A character as often as asked. -/
def repeated (c : Char) (n : Nat) : String := String.ofList (List.replicate n c)

/-- A line filled up to a width with blanks. -/
def padded (width : Nat) (line : List Char) : String :=
  String.ofList line ++ repeated ' ' (width - Text.width line)

/-- A line of the table: the `k`-th line of each cell. -/
def rowLine (widths : List Nat) (cells : List (List (List Char))) (k : Nat) : String :=
  "| " ++ String.intercalate " | " (List.zipWith (fun w cell => padded w (cell.getD k [])) widths cells)
    ++ " |"

def rowLines (widths : List Nat) (row : List String) : List String :=
  let cells := row.map cellLines
  (List.range ((cells.map List.length).foldl max 0)).map (rowLine widths cells)

/-- A line that runs through all columns. -/
def ruler (widths : List Nat) (ends : String) : String :=
  ends ++ String.intercalate "+" (widths.map fun w => repeated '-' (w + 2)) ++ ends

/-- The line under the header. -/
def headerRuler (widths : List Nat) : String :=
  "+" ++ repeated '=' (widths.foldr (fun width n => width + 3 + n) 0 - 1) ++ "+"

def render (t : Table) : String :=
  let widths := t.widths
  let rows := t.rows.map (rowLines widths)
  String.intercalate "\n" <|
    [ruler widths "+"] ++ rowLines widths t.header ++ [headerRuler widths]
      ++ (rows.intersperse [ruler widths "|"]).flatten ++ [ruler widths "+"]

end Table

end EntityModel
