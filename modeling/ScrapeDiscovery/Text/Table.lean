import ScrapeDiscovery.Text.Search
import ScrapeDiscovery.Text.Width

/-!
# Tables

A table has a header and rows with a cell for every column. It is drawn with
rounded corners; a cell with line ends takes several lines, and every column is as
wide as its widest line.
-/

namespace ScrapeDiscovery.Text

/-- The lines of a cell. -/
def cellLines (cell : String) : List String :=
  (splitOnChar (· == '\n') cell.toList).map String.ofList

/-- The columns of a cell's widest line. -/
def cellWidth (cell : String) : Nat := (cellLines cell).foldl (fun w l => max w (displayWidth l)) 0

/-- The widths of the columns of rows. -/
def columnWidths : List (List String) → List Nat
  | [] => []
  | [row] => row.map cellWidth
  | row :: rows => (row.map cellWidth).zipWith max (columnWidths rows)

/-- Blanks. -/
def blanks (n : Nat) : String := String.ofList (List.replicate n ' ')

/-- A line with blanks up to a width. -/
def padded (width : Nat) (line : String) : String := line ++ blanks (width - displayWidth line)

/-- A line of a frame: a corner, a stroke for every column, a joint between two, a corner. -/
def frameLine (left joint right : String) (widths : List Nat) : String :=
  let stroke (w : Nat) : String := String.ofList (List.replicate (w + 2) '─')
  left ++ joint.intercalate (widths.map stroke) ++ right

/-- One line of a row. -/
def rowLine (widths : List Nat) (lines : List String) : String :=
  "│" ++ "│".intercalate (widths.zipWith (fun w l => " " ++ padded w l ++ " ") lines) ++ "│"

/-- The lines of a row: as many as its highest cell has. -/
def rowLines (widths : List Nat) (row : List String) : List String :=
  let cells := row.map cellLines
  let height := cells.foldl (fun h c => max h c.length) 1
  (List.range height).map fun i => rowLine widths (cells.map fun c => c.getD i "")

/-- A table with a header. -/
def drawTable (header : List String) (rows : List (List String)) : String :=
  let widths := columnWidths (header :: rows)
  "\n".intercalate (
    [frameLine "╭" "┬" "╮" widths] ++ rowLines widths header ++ [frameLine "├" "┼" "┤" widths] ++
      rows.flatMap (rowLines widths) ++ [frameLine "╰" "┴" "╯" widths])

end ScrapeDiscovery.Text
