import Reckoner.Mat.Grid
/-!
# Inversion

Elimination with a rule that picks the pivot row in each column. The rule of the calculator takes the remaining
row whose cell is largest among doubles; any other rule gives the same inverse.
-/

namespace Reckoner.Grid

variable {n : Nat}

/-- A choice of a pivot row for a column, among the rows that are not finished. -/
abbrev PivotRule (n : Nat) := (column : Fin n) → Grid n n → Outcome { row : Fin n // column ≤ row }

/-- Row operations on a pair of grids that make one column of the left grid a column of the identity: the pivot row
comes to its place, is divided by its pivot, and clears the other rows. -/
def clearColumn (column pivot : Fin n) (left right : Grid n n) : Grid n n × Grid n n :=
  let left := left.swapRows column pivot
  let right := right.swapRows column pivot
  let divisor := left.cell column column
  let left := left.divideRow column divisor
  let right := right.divideRow column divisor
  let factor := fun i => left.cell i column
  (left.subtractRow column factor, right.subtractRow column factor)

/-- Elimination in the given columns; a pivot that is zero is refused. -/
def eliminate (rule : PivotRule n) : List (Fin n) → Grid n n → Grid n n → Outcome (Grid n n)
  | [], _, right => .ok right
  | column :: rest, left, right => do
    let pivot ← rule column left
    if left.cell pivot column = 0 then refuse .singularMatrix
    else
      let (left, right) := clearColumn column pivot left right
      eliminate rule rest left right

/-- The inverse, with the pivots that a rule picks; a determinant of zero is refused. -/
def inverseWith (rule : PivotRule n) (g : Grid n n) : Outcome (Grid n n) :=
  if g.det = 0 then refuse .singularMatrix
  else eliminate rule (List.finRange n) g (identity n)

/-! ## The largest pivot -/

/-- The rows from `column` on. -/
def remaining (column : Fin n) : List { row : Fin n // column ≤ row } :=
  (List.finRange n).filterMap fun row => if h : column ≤ row then some ⟨row, h⟩ else none

/-- The first of the largest entries, and at least `best`. -/
def firstLargest {α : Type} (best : α × Double) : List (α × Double) → α
  | [] => best.1
  | entry :: rest => firstLargest (if best.2.lt entry.2 then entry else best) rest

/-- The remaining row whose cell has the largest magnitude among doubles, the first one of equals. A cell too large
for a double is an overflow. -/
def largestPivot (column : Fin n) (g : Grid n n) : Outcome { row : Fin n // column ≤ row } := do
  let sizes ← (remaining column).mapM fun row => do return (row, ← (g.cell row.val column).magnitude)
  match sizes with
  | [] => return ⟨column, Fin.le_refl column⟩
  | first :: rest => return firstLargest first rest

/-- The inverse. -/
def inverse (g : Grid n n) : Outcome (Grid n n) := inverseWith largestPivot g

end Reckoner.Grid
