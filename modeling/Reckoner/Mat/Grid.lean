import Reckoner.Gaussian.Basic
/-!
# Grids

Rectangles of Gaussian rationals of a fixed size, stored row by row: sums, products, determinants, powers and row
operations. Every operation says what each cell of its result is.
-/

namespace Reckoner

/-- A rectangle of cells with `r` rows and `c` columns. -/
@[ext]
structure Grid (r c : Nat) where
  cells : Vector (Vector Gaussian c) r
  deriving DecidableEq

namespace Grid

variable {r c k n : Nat}

/-- The cell in a row and a column. -/
def cell (g : Grid r c) (i : Fin r) (j : Fin c) : Gaussian := g.cells[i.val][j.val]

/-- The grid with the given cells. -/
def ofFn (f : Fin r → Fin c → Gaussian) : Grid r c :=
  ⟨Vector.ofFn fun i => Vector.ofFn fun j => f i j⟩

@[simp] theorem cell_ofFn (f : Fin r → Fin c → Gaussian) (i : Fin r) (j : Fin c) :
    (ofFn f).cell i j = f i j := by
  simp [cell, ofFn]

/-- Two grids with the same cells are equal. -/
theorem ext_cell {g h : Grid r c} (same : ∀ i j, g.cell i j = h.cell i j) : g = h := by
  obtain ⟨a⟩ := g
  obtain ⟨b⟩ := h
  rw [Grid.mk.injEq]
  exact Vector.ext fun i hi => Vector.ext fun j hj => same ⟨i, hi⟩ ⟨j, hj⟩

/-- The same grid under equal sizes. -/
def resize {r' c' : Nat} (hr : r = r') (hc : c = c') (g : Grid r c) : Grid r' c' :=
  hr ▸ hc ▸ g

@[simp] theorem resize_rfl (g : Grid r c) : g.resize rfl rfl = g := rfl

/-! ## Cell by cell -/

/-- A function applied to every cell. -/
def map (f : Gaussian → Gaussian) (g : Grid r c) : Grid r c := ofFn fun i j => f (g.cell i j)

/-- A function applied to the cells of two grids. -/
def zipWith (f : Gaussian → Gaussian → Gaussian) (g h : Grid r c) : Grid r c :=
  ofFn fun i j => f (g.cell i j) (h.cell i j)

/-- The grid with rows and columns exchanged. -/
def transpose (g : Grid r c) : Grid c r := ofFn fun i j => g.cell j i

/-- The grid of zeros. -/
def zero (r c : Nat) : Grid r c := ofFn fun _ _ => 0

/-- Ones on the diagonal, zeros elsewhere. -/
def identity (n : Nat) : Grid n n := ofFn fun i j => if i = j then 1 else 0

/-- Whether every cell is zero. -/
def isZero (g : Grid r c) : Bool := g == zero r c

/-- The rows as lists. -/
def toLists (g : Grid r c) : List (List Gaussian) := List.ofFn fun i => List.ofFn fun j => g.cell i j

/-! ## Products -/

/-- The product: each cell sums the products along a row and a column. -/
def mul (g : Grid r k) (h : Grid k c) : Grid r c :=
  ofFn fun i j => ((List.finRange k).map fun l => g.cell i l * h.cell l j).sum

/-- The `e`th power of `base` multiplied onto what is accumulated, which is nothing until the first digit of the exponent
that is one; the base is squared only while digits are left. -/
def powerOnto (accumulated : Option (Grid n n)) (base : Grid n n) (e : Nat) : Option (Grid n n) :=
  if _h : e = 0 then accumulated
  else
    let accumulated :=
      if e % 2 = 1 then some (match accumulated with | none => base | some product => product.mul base) else accumulated
    powerOnto accumulated (if e / 2 = 0 then base else base.mul base) (e / 2)
termination_by e
decreasing_by omega

/-- A power with a natural exponent; where nothing is accumulated, the identity. -/
def power (g : Grid n n) (e : Nat) : Grid n n := (powerOnto none g e).getD (identity n)

theorem power_zero (g : Grid n n) : g.power 0 = identity n := by simp [power, powerOnto]

theorem power_one (g : Grid n n) : g.power 1 = g := by simp [power, powerOnto]

/-! ## Determinants -/

/-- The index after `j` is left out: the ones from `j` on move up by one. -/
def skip (j : Fin (n + 1)) (i : Fin n) : Fin (n + 1) := if i.castSucc < j then i.castSucc else i.succ

/-- The grid without its first row and one column. -/
def minor (g : Grid (r + 1) (c + 1)) (j : Fin (c + 1)) : Grid r c :=
  ofFn fun i l => g.cell i.succ (skip j l)

/-- The determinant: by a closed form up to two rows, else by expansion along the first row; zero cells cost nothing. -/
def det : {n : Nat} → Grid n n → Gaussian
  | 0, _ => 1
  | 1, g => g.cell 0 0
  | 2, g => g.cell 0 0 * g.cell 1 1 - g.cell 0 1 * g.cell 1 0
  | _ + 3, g =>
    ((List.finRange _).map fun j =>
      let cell := g.cell 0 j
      if cell = 0 then 0
      else
        let term := cell * det (g.minor j)
        if j.val % 2 = 0 then term else -term).sum

/-! ## Row operations -/

/-- The grid with two rows exchanged. -/
def swapRows (a b : Fin r) (g : Grid r c) : Grid r c :=
  ofFn fun i j => g.cell (if i = a then b else if i = b then a else i) j

/-- The grid with one row divided by a number. -/
def divideRow (row : Fin r) (divisor : Gaussian) (g : Grid r c) : Grid r c :=
  ofFn fun i j => if i = row then g.cell i j / divisor else g.cell i j

/-- The grid with a multiple of one row taken from each of the others. -/
def subtractRow (row : Fin r) (factor : Fin r → Gaussian) (g : Grid r c) : Grid r c :=
  ofFn fun i j => if i = row then g.cell i j else g.cell i j - factor i * g.cell row j

end Grid

end Reckoner
