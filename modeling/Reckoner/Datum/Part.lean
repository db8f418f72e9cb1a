import Reckoner.Datum.Places
import Reckoner.Mat.Access
/-!
# Parts of data

Items by index, the parts of plain numbers, coefficients by power, and the values of polynomials and functions at data.
-/

namespace Reckoner.Datum

/-! ## Items by index -/

/-- A cell as data. -/
def cell (z : Gaussian) : Datum := .value (.number (.ofGaussian z))

/-- The cell of a matrix at two indexes. -/
def cellAt (m : Mat) (row column : Datum) : Outcome Datum := do
  let cells ← m.rowAt (← row.toInteger)
  return cell (← Mat.itemAt cells (← column.toInteger))

/-- A row of a matrix, or the cell that a pair of indexes stands for. -/
def partOfMat (m : Mat) : Datum → Outcome Datum
  | .tuple [row, column] => cellAt m row column
  | .tuple _ => .error .meaningless
  | row => do return .tuple ((← m.rowAt (← row.toInteger)).map cell)

/-- The item of data at an index; a list of indexes stands for one index with several parts. -/
def itemAt (d index : Datum) : Outcome Datum :=
  let index := match index with | .list items => .tuple items | index => index
  match d with
  | .value (.matrix m) => partOfMat m index
  | .text t => do return .text [← Mat.itemAt t (← index.toInteger)]
  | .list items => do Mat.itemAt items (← index.toInteger)
  | .tuple items => do Mat.itemAt items (← index.toInteger)
  | .object => .error (if index.isKey then .unknownKey else .kindMismatch)
  | _ => .error .kindMismatch

/-! ## Parts of plain numbers -/

/-- The numerator of an integer. -/
def numerator (d : Datum) : Outcome Datum :=
  match d.plainInteger? with
  | some i => .ok (.integer i)
  | none => .error .missingPart

/-- The denominator of an integer. -/
def denominator (d : Datum) : Outcome Datum := d.numerator.map fun _ => .integer 1

/-- The real part of a plain number. -/
def realPart : Datum → Outcome Datum
  | .double d => .ok (.double d)
  | .complexDouble z => .ok (.double z.re)
  | .decimal d => .ok (.decimal d)
  | d => d.numerator

/-- The imaginary part of a plain number. -/
def imaginaryPart : Datum → Outcome Datum
  | .double _ => .ok (.double (.zero false))
  | .complexDouble z => .ok (.double z.im)
  | .decimal _ => .ok (.decimal (.finite false 0 0))
  | d => d.numerator.map fun _ => .integer 0

/-- A plain number with its imaginary part negated. -/
def conjugated : Datum → Outcome Datum
  | .complexDouble z => .ok (.complexDouble z.conjugate)
  | d => d.realPart

/-! ## Coefficients -/

/-- The term whose power equals data. -/
def termOf (d : Datum) : Terms → Outcome (Option Coeff)
  | [] => .ok none
  | t :: rest => do if ← d.same (.count t.1) then return some t.2 else termOf d rest

/-- The coefficient of a polynomial at the power that data equals; some data cannot be looked up. -/
def coefficientOf (p : Poly) (d : Datum) : Outcome Value := do
  if !d.isKey then .error .kindMismatch
  else return ((← termOf d p.terms).map Coeff.toValue).getD (.rational 0)

/-! ## Substitution -/

/-- The value of a polynomial at data. -/
def evalPoly (p : Poly) (d : Datum) : Outcome Value := do p.eval (← d.toValue)

/-- The value of a function at data; a constant body does not look at it. -/
def call (f : NamedFunction) (d : Datum) : Outcome Value :=
  match f.body with
  | .polynomial p => evalPoly p d
  | body => .ok body

end Reckoner.Datum
