import ViewCompiler.Text.Basic

/-!
# Columns

Rows of cells as lines of text: every cell but the last of its row is filled up with blanks, so that
the cells of a column start at the same place. Widths count characters.
-/

namespace ViewCompiler.Text.Columns

/-- The blanks between two columns. -/
def gap : Nat := 2

/-- The widths of columns that have to hold one more row. -/
def widen : List Nat → List String → List Nat
  | w :: ws, cell :: cells => max w cell.length :: widen ws cells
  | [], cells => cells.map String.length
  | ws, [] => ws

/-- The widths of the columns of several rows. -/
def widths (rows : List (List String)) : List Nat := rows.foldl widen []

/-- A cell filled up with blanks. -/
def pad (width : Nat) (cell : String) : String :=
  cell ++ String.ofList (List.replicate (width + gap - cell.length) ' ')

/-- A row as a line without its end. -/
def line : List Nat → List String → String
  | _, [] => ""
  | _, [cell] => cell
  | [], cell :: cells => cell ++ line [] cells
  | w :: ws, cell :: cells => pad w cell ++ line ws cells

/-- Rows as lines. -/
def render (rows : List (List String)) : String :=
  String.join (rows.map fun row => line (widths rows) row ++ "\n")

end ViewCompiler.Text.Columns
