import Reckoner.Mat.Basic
/-!
# Rows and cells by index

An index that is negative counts from the end. An index outside the matrix is a failure of its own.
-/

namespace Reckoner.Mat

/-- The item at an index. -/
def itemAt {α : Type} (items : List α) (index : Int) : Outcome α :=
  let place := if index < 0 then index + items.length else index
  if place < 0 then .error .indexOutOfRange
  else
    match items[place.toNat]? with
    | some a => .ok a
    | none => .error .indexOutOfRange

/-- The row at an index. -/
def rowAt (m : Mat) (row : Int) : Outcome (List Gaussian) := itemAt m.rows row

/-- The cell at two indexes. -/
def cellAt (m : Mat) (row column : Int) : Outcome Gaussian := do itemAt (← m.rowAt row) column

/-! ## Doubles -/

/-- Whether every cell is a rational number. -/
def isRational (m : Mat) : Bool := m.rows.all fun row => row.all fun z => z.im == 0

/-- The cells as pairs of doubles. -/
def toDoubles (m : Mat) : Outcome (List (List (Double × Double))) :=
  m.rows.mapM fun row => row.mapM Gaussian.toDoubles

end Reckoner.Mat
