/-
# Grids of text

Rows of cells in columns, in a frame, with a double line below the heading. A
column is as wide as its widest cell.

Key definition: `Grid.render`.
-/
import Concord.Text.Width

namespace Concord
namespace Grid

/-- The width of each column of some rows with so many cells. -/
def widths (columns : Nat) (rows : List (List String)) : List Nat :=
  (List.range columns).map fun i =>
    (rows.map fun row => ((row[i]?).map Text.width).getD 0).foldl max 0

/-- A cell with spaces up to the width of its column, and one on each side. -/
def cell (width : Nat) (text : String) : String :=
  " " ++ text ++ String.ofList (List.replicate (width - Text.width text) ' ') ++ " "

/-- A row in its frame. -/
def line (widths : List Nat) (row : List String) : String :=
  "│" ++ " ".intercalate (List.zipWith cell widths row) ++ "│"

/-- A line across the frame. -/
def rule (left middle right : Char) (widths : List Nat) : String :=
  let size := widths.foldr (fun w n => w + 3 + n) 0 - 1
  String.ofList (left :: List.replicate size middle ++ [right])

/-- A heading and rows as lines. -/
def render (heading : List String) (rows : List (List String)) : List String :=
  let w := widths heading.length (heading :: rows)
  rule '┌' '─' '┐' w :: line w heading :: rule '╞' '═' '╡' w :: rows.map (line w) ++
    [rule '└' '─' '┘' w]

end Grid
end Concord
