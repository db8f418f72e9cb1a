import Reckoner.Mat.Inverse
/-!
# Matrices

A matrix is a grid of some positive size. Operations on matrices compare sizes and refuse those that do not fit.
-/

namespace Reckoner

/-- A matrix with at least one row and one column. -/
structure Mat where
  height : Nat
  width : Nat
  height_pos : 0 < height
  width_pos : 0 < width
  grid : Grid height width
  deriving DecidableEq

namespace Mat

/-! ## Building and looking -/

/-- Rows and columns. -/
def shape (m : Mat) : Shape := (m.height, m.width)

/-- Whether there are as many rows as columns. -/
def isSquare (m : Mat) : Bool := m.height == m.width

/-- The rows as lists. -/
def rows (m : Mat) : List (List Gaussian) := m.grid.toLists

/-- Whether every cell is zero. -/
def isZero (m : Mat) : Bool := m.grid.isZero

/-- The matrix with the given rows, which must be of one length. -/
def ofRows (rows : List (List Gaussian)) : Outcome Mat :=
  let width := (rows.headD []).length
  if h : 0 < rows.length ∧ 0 < width then
    if same : ∀ row ∈ rows, row.length = width then
      .ok ⟨rows.length, width, h.1, h.2,
        Grid.ofFn fun i j => (rows.get i).get ⟨j, by rw [same _ (List.get_mem rows i)]; exact j.isLt⟩⟩
    else refuse .unevenRows
  else refuse .emptyMatrix

/-- The matrix of zeros. -/
def zeros (height width : Nat) : Outcome Mat :=
  if h : 0 < height ∧ 0 < width then .ok ⟨height, width, h.1, h.2, Grid.zero height width⟩
  else refuse .emptyMatrix

/-- The identity matrix. -/
def identity (size : Nat) : Outcome Mat :=
  if h : 0 < size then .ok ⟨size, size, h, h, Grid.identity size⟩ else refuse .emptyMatrix

/-! ## Text -/

/-- Rows in brackets with semicolons between them, cells with commas between them. -/
def text (m : Mat) : Text :=
  '[' :: Text.join [';'] (m.rows.map fun row => '[' :: Text.join [','] (row.map Gaussian.text) ++ [']']) ++ [']']

/-- Whether the numerals of the text are short enough to be written. -/
def isWritable (m : Mat) : Bool := m.rows.all fun row => row.all Gaussian.isWritable

/-- One row a line. -/
def prettyText (m : Mat) : Text :=
  Text.join ['\n'] (m.rows.map fun row =>
    '[' :: ' ' :: Text.join [' ', ',', ' '] (row.map Gaussian.text) ++ [' ', ']'])

/-! ## Arithmetic -/

/-- A function applied to every cell. -/
def map (f : Gaussian → Gaussian) (m : Mat) : Mat := { m with grid := m.grid.map f }

/-- The matrix with every cell negated. -/
def neg (m : Mat) : Mat := m.map (-·)

/-- A function applied to the cells of two matrices of one shape. -/
def zipWith (operation : String) (f : Gaussian → Gaussian → Gaussian) (a b : Mat) : Outcome Mat :=
  if h : b.height = a.height ∧ b.width = a.width then
    .ok { a with grid := a.grid.zipWith f (b.grid.resize h.1 h.2) }
  else refuse (.dimensionMismatch operation a.shape b.shape)

/-- The sum. -/
def add (a b : Mat) : Outcome Mat := zipWith "addition" (· + ·) a b

/-- The difference. -/
def sub (a b : Mat) : Outcome Mat := zipWith "subtraction" (· - ·) a b

/-- The product: the columns of the left must be as many as the rows of the right. -/
def mul (a b : Mat) : Outcome Mat :=
  if h : b.height = a.width then
    .ok ⟨a.height, b.width, a.height_pos, b.width_pos, a.grid.mul (b.grid.resize h rfl)⟩
  else refuse (.dimensionMismatch "multiplication" a.shape b.shape)

/-- The matrix times a number. -/
def scale (z : Gaussian) (m : Mat) : Mat := m.map (· * z)

/-- The matrix divided by a number; zero is refused. -/
def scaleDown (m : Mat) (z : Gaussian) : Outcome Mat :=
  if z = 0 then refuse .divideByZero else .ok (m.map (· / z))

/-- The matrix with rows and columns exchanged. -/
def transpose (m : Mat) : Mat := ⟨m.width, m.height, m.width_pos, m.height_pos, m.grid.transpose⟩

/-- What a function of square grids gives; other matrices are refused. -/
def onSquare {α : Type} (operation : String) (m : Mat) (f : Grid m.height m.height → Outcome α) : Outcome α :=
  if h : m.width = m.height then f (m.grid.resize rfl h) else refuse (.notSquare operation m.shape)

/-- A square matrix of the same size. -/
def sameSize (m : Mat) (g : Grid m.height m.height) : Mat :=
  ⟨m.height, m.height, m.height_pos, m.height_pos, g⟩

/-- The determinant of a square matrix. -/
def determinant (m : Mat) : Outcome Gaussian := m.onSquare "determinant" fun g => .ok g.det

/-- The inverse of a square matrix. -/
def inverse (m : Mat) : Outcome Mat := m.onSquare "inverse" fun g => do return m.sameSize (← g.inverse)

/-- An integer power of a square matrix: for a negative exponent, a power of the inverse. Nothing is multiplied for the
exponents zero and one. -/
def power (m : Mat) (n : Int) : Outcome Mat :=
  m.onSquare "power" fun g => do
    if n = 0 then return m.sameSize (.identity m.height)
    else if n = 1 then return m.sameSize g
    else if 0 < n then return m.sameSize (g.power n.toNat)
    else return m.sameSize ((← g.inverse).power (-n).toNat)

/-- The exponents for which nothing is multiplied are no exceptions. -/
theorem power_eq (m : Mat) (n : Int) : m.power n = m.onSquare "power" fun g =>
    if 0 ≤ n then .ok (m.sameSize (g.power n.toNat))
    else do return m.sameSize ((← g.inverse).power (-n).toNat) := by
  rw [power]
  congr 1
  funext g
  by_cases zero : n = 0
  · subst zero
    rw [Int.toNat_zero, Grid.power_zero]
    rfl
  · by_cases one : n = 1
    · subst one
      rw [Int.toNat_one, Grid.power_one]
      rfl
    · have sign : 0 < n ↔ 0 ≤ n := by omega
      simp only [if_neg zero, if_neg one, sign]
      rfl

/-! ## Size -/

/-- The sum of the absolute values of the cells of a column. -/
def columnSize (places : Nat) (m : Mat) (column : Fin m.width) : Outcome Rat :=
  (List.finRange m.height).foldlM
    (fun total i => do return total + (← (m.grid.cell i column).abs places)) 0

/-- The larger of two numbers. -/
def larger (a b : Rat) : Rat := if a < b then b else a

/-- The norm: the largest sum of absolute values in a column. -/
def norm (places : Nat) (m : Mat) : Outcome Rat := do
  let sizes ← (List.finRange m.width).mapM (m.columnSize places)
  return sizes.foldl larger 0

end Mat

end Reckoner
