import ViewCompiler.Text.Basic

/-!
# Edit distance

How many items have to be inserted, deleted or replaced to turn one list into another. The distances
from the beginnings of the first list to all beginnings of the second one are computed row by row.
-/

namespace ViewCompiler.Text.EditDistance

variable {α : Type} [DecidableEq α]

/-- The distances to the non-empty beginnings of `t` after one more item `a`. Given are the new
distance to the left, the old distance to the left, and the old distances from here on. -/
def extend (a : α) : (left corner : Nat) → (t : List α) → (above : List Nat) → List Nat
  | left, corner, b :: t, up :: above =>
    let d := min (min (left + 1) (up + 1)) (corner + if a = b then 0 else 1)
    d :: extend a d up t above
  | _, _, _, _ => []

/-- The distances to all beginnings of `t` after one more item `a`. -/
def nextRow (t : List α) (row : List Nat) (a : α) : List Nat :=
  match row with
  | [] => []
  | d :: ds => (d + 1) :: extend a (d + 1) d t ds

/-- The distances from nothing to all beginnings of a list of the given length. -/
def firstRow (length : Nat) : List Nat := List.range (length + 1)

/-- The edit distance of two lists. -/
def distance (s t : List α) : Nat :=
  ((s.foldl (nextRow t) (firstRow t.length)).getLast?).getD 0

/-- From nothing, every item has to be inserted. -/
@[simp]
theorem distance_nil_left (t : List α) : distance [] t = t.length := by
  simp [distance, firstRow, List.range_succ]

end ViewCompiler.Text.EditDistance
