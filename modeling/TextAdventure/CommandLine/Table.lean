/-!
# Tables

A table is drawn with a frame. A column is as wide as its widest line and a space on each side; a line
feed inside a cell starts a new line of its row.
-/

namespace TextAdventure.CommandLine

/-- A table: its header and its rows. -/
structure Table where
  header : List String
  rows : List (List String)

namespace Table

/-- The lines of a cell. -/
def cellLines (cell : String) : List (List Char) := cell.toList.splitOn '\n'

/-- The width of a cell. -/
def cellWidth (cell : String) : Nat := ((cellLines cell).map List.length).foldl max 0

/-- The widths of the columns, without the spaces beside them. -/
def widths (t : Table) : List Nat :=
  t.rows.foldl (fun widths row => List.zipWith max widths (row.map cellWidth))
    (t.header.map cellWidth)

/-- A line of a cell, filled with spaces. -/
def fill (width : Nat) (line : List Char) : List Char :=
  line ++ List.replicate (width - line.length) ' '

/-- One line of a row. -/
def rowLine (widths : List Nat) (row : List (List (List Char))) (index : Nat) : List Char :=
  (List.zipWith (fun width cell => ['|', ' '] ++ fill width (cell.getD index []) ++ [' '])
    widths row).flatten ++ ['|']

/-- The lines of a row. -/
def rowLines (widths : List Nat) (row : List String) : List (List Char) :=
  let cells := row.map cellLines
  (List.range ((cells.map List.length).foldl max 0)).map (rowLine widths cells)

/-- A line across the table: its ends, the strokes and what stands between two columns. -/
def rule (side stroke junction : Char) (widths : List Nat) : List Char :=
  [side] ++ ((widths.map fun width => List.replicate (width + 2) stroke).intersperse [junction]).flatten
    ++ [side]

/-- The lines of a table. -/
def lines (t : Table) : List String :=
  let widths := t.widths
  let border := rule '+' '-' '+' widths
  let rows := (t.rows.map (rowLines widths)).intersperse [rule '|' '-' '+' widths]
  ([border] ++ rowLines widths t.header ++ [rule '+' '=' '=' widths] ++ rows.flatten ++ [border]).map
    String.ofList

end Table

end TextAdventure.CommandLine
