import Folio.Text.Find
import Folio.Text.Width

/-!
# Tables

A table with rounded corners: a row of titles, a line, and the other rows. A column is as wide as its widest cell,
with a space on either side. A cell of several lines makes its row as high.
-/

namespace Folio.Cli

/-- The lines of a cell. -/
def cellLines (cell : String) : List String :=
  (Text.splitAll '\n' cell.toList).map String.ofList

/-- The width of a cell, which is that of its widest line. -/
def cellWidth (cell : String) : Nat :=
  ((cellLines cell).map Text.displayWidth).foldl max 0

/-- The widths of the columns of some rows. -/
def columnWidths (rows : List (List String)) : List Nat :=
  rows.foldl (fun widths row => widen widths (row.map cellWidth)) []
where
  widen : List Nat → List Nat → List Nat
    | [], widths => widths
    | widths, [] => widths
    | a :: as, b :: bs => max a b :: widen as bs

/-- A line across the table. -/
def rule (left between right : String) (widths : List Nat) : String :=
  left ++ String.intercalate between (widths.map fun w => String.join (List.replicate (w + 2) "─")) ++ right

/-- One line of a row. -/
def tableLine (widths : List Nat) (cells : List String) : String :=
  "│" ++ String.intercalate "│" ((widths.zip cells).map fun (w, cell) => " " ++ Text.padTo w cell ++ " ") ++ "│"

/-- The lines of a row. -/
def rowLines (widths : List Nat) (row : List String) : List String :=
  let cells := row.map cellLines
  let height := (cells.map List.length).foldl max 1
  (List.range height).map fun i => tableLine widths (cells.map fun lines => (lines[i]?).getD "")

/-- A table of rows with the same number of cells each. -/
def table (titles : List String) (rows : List (List String)) : String :=
  let widths := columnWidths (titles :: rows)
  String.intercalate "\n" <|
    [rule "╭" "┬" "╮" widths] ++ rowLines widths titles ++ [rule "├" "┼" "┤" widths] ++
      rows.flatMap (rowLines widths) ++ [rule "╰" "┴" "╯" widths]

end Folio.Cli
