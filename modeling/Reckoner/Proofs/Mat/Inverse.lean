import Mathlib.Algebra.BigOperators.Field
import Mathlib.Data.List.FinRange
import Mathlib.Data.Matrix.Mul
import Mathlib.LinearAlgebra.Matrix.NonsingularInverse
import Reckoner.Mat.Basic
import Reckoner.Proofs.Gaussian.Field
import Reckoner.Proofs.Outcome
/-!
# Inversion is correct

`Mat.inverse_correct`: whatever rule picks the pivots, a matrix that elimination gives is an inverse on both sides.

Two facts hold from column to column. The right grid times the grid that is inverted is the left grid, since the same
row operations are done on both. And the columns that are done are those of the identity: a pivot row is never above
its column, so later operations exchange and subtract rows that have a zero there. After the last column the left grid
is the identity, and what stands to the right is an inverse from the left, hence from both sides.
-/

namespace Reckoner

namespace Grid

variable {r c k n : Nat}

/-! ## Grids as matrices -/

/-- The grid as a matrix over the field of its cells. -/
def toMatrix (g : Grid r c) : Matrix (Fin r) (Fin c) Gaussian := Matrix.of g.cell

@[simp] theorem toMatrix_apply (g : Grid r c) (i : Fin r) (j : Fin c) : g.toMatrix i j = g.cell i j := rfl

theorem toMatrix_injective {g h : Grid r c} (same : g.toMatrix = h.toMatrix) : g = h :=
  ext_cell fun i j => congrFun (congrFun same i) j

theorem cell_mul (g : Grid r k) (h : Grid k c) (i : Fin r) (j : Fin c) :
    (g.mul h).cell i j = ∑ l, g.cell i l * h.cell l j := by
  rw [mul, cell_ofFn, Fin.sum_univ_def]

theorem toMatrix_mul (g : Grid r k) (h : Grid k c) : (g.mul h).toMatrix = g.toMatrix * h.toMatrix := by
  apply Matrix.ext
  intro i j
  rw [toMatrix_apply, cell_mul, Matrix.mul_apply]
  rfl

theorem toMatrix_identity (n : Nat) : (identity n).toMatrix = 1 := by
  apply Matrix.ext
  intro i j
  rw [toMatrix_apply, identity, cell_ofFn, Matrix.one_apply]

theorem toMatrix_add (g h : Grid r c) : (g.zipWith (· + ·) h).toMatrix = g.toMatrix + h.toMatrix := by
  apply Matrix.ext
  intro i j
  simp [zipWith]

theorem toMatrix_transpose (g : Grid r c) : g.transpose.toMatrix = g.toMatrix.transpose := by
  apply Matrix.ext
  intro i j
  simp [transpose]

theorem identity_mul (g : Grid r c) : (identity r).mul g = g := by
  apply toMatrix_injective
  rw [toMatrix_mul, toMatrix_identity, Matrix.one_mul]

theorem mul_identity (g : Grid r c) : g.mul (identity c) = g := by
  apply toMatrix_injective
  rw [toMatrix_mul, toMatrix_identity, Matrix.mul_one]

/-- An inverse from the left is one from the right. -/
theorem mul_eq_identity_comm {g h : Grid n n} (left : h.mul g = identity n) : g.mul h = identity n := by
  have product : h.toMatrix * g.toMatrix = 1 := by rw [← toMatrix_mul, left, toMatrix_identity]
  apply toMatrix_injective
  rw [toMatrix_mul, toMatrix_identity]
  exact mul_eq_one_comm.1 product

/-- A grid has at most one inverse. -/
theorem eq_of_mul_eq_identity {g h h' : Grid n n} (left : h.mul g = identity n) (left' : h'.mul g = identity n) :
    h = h' := by
  have product : h.toMatrix * g.toMatrix = 1 := by rw [← toMatrix_mul, left, toMatrix_identity]
  have product' : g.toMatrix * h'.toMatrix = 1 := by
    rw [← toMatrix_mul, mul_eq_identity_comm left', toMatrix_identity]
  exact toMatrix_injective (left_inv_eq_right_inv product product')

/-! ## Row operations on a factor -/

section Operations

variable (g : Grid r k) (a : Grid k c)

theorem swapRows_mul (i j : Fin r) : (g.swapRows i j).mul a = (g.mul a).swapRows i j := by
  apply ext_cell
  intro i j
  simp only [cell_mul, swapRows, cell_ofFn]

theorem divideRow_mul (row : Fin r) (divisor : Gaussian) :
    (g.divideRow row divisor).mul a = (g.mul a).divideRow row divisor := by
  apply ext_cell
  intro i j
  simp only [cell_mul, divideRow, cell_ofFn]
  split
  · simp only [Finset.sum_div, div_mul_eq_mul_div]
  · rfl

theorem subtractRow_mul (row : Fin r) (factor : Fin r → Gaussian) :
    (g.subtractRow row factor).mul a = (g.mul a).subtractRow row factor := by
  apply ext_cell
  intro i j
  simp only [cell_mul, subtractRow, cell_ofFn]
  split
  · rfl
  · simp only [sub_mul, mul_assoc, Finset.sum_sub_distrib, Finset.mul_sum]

end Operations

/-- Clearing a column keeps it true that the right grid takes the inverted one to the left grid. -/
theorem clearColumn_mul {g left right : Grid n n} (h : right.mul g = left) (column pivot : Fin n) :
    (clearColumn column pivot left right).2.mul g = (clearColumn column pivot left right).1 := by
  simp only [clearColumn, subtractRow_mul, divideRow_mul, swapRows_mul, h]

/-! ## Finished columns -/

/-- The column is the one of the identity. -/
def UnitColumn (g : Grid n n) (j : Fin n) : Prop := ∀ i, g.cell i j = if i = j then 1 else 0

theorem eq_identity {g : Grid n n} (h : ∀ j, g.UnitColumn j) : g = identity n := by
  apply ext_cell
  intro i j
  rw [h j i, identity, cell_ofFn]

/-- A column with a pivot that is not zero becomes one of the identity. -/
theorem clearColumn_unitColumn {column pivot : Fin n} {left : Grid n n} (h : left.cell pivot column ≠ 0)
    (right : Grid n n) : (clearColumn column pivot left right).1.UnitColumn column := by
  intro i
  simp only [clearColumn, subtractRow, divideRow, swapRows, cell_ofFn, if_true]
  by_cases own : i = column
  · rw [if_pos own, if_pos own, if_pos own, if_pos own]
    exact div_self h
  · simp only [if_neg own, div_self h, mul_one, sub_self]

/-- A column to the left that is done stays so: it has zeros in both rows that change places. -/
theorem UnitColumn.clearColumn {j column pivot : Fin n} {left : Grid n n} (h : left.UnitColumn j)
    (before : j < column) (below : column ≤ pivot) (right : Grid n n) :
    (clearColumn column pivot left right).1.UnitColumn j := by
  have columnZero : left.cell column j = 0 := by rw [h, if_neg before.ne']
  have pivotZero : left.cell pivot j = 0 := by rw [h, if_neg (before.trans_le below).ne']
  have swapped : (left.swapRows column pivot).UnitColumn j := by
    intro i
    rw [swapRows, cell_ofFn]
    split
    next first => rw [pivotZero, first, if_neg before.ne']
    next =>
      split
      next second => rw [columnZero, second, if_neg (before.trans_le below).ne']
      next => exact h i
  have pivotRow : (left.swapRows column pivot).cell column j = 0 := by rw [swapped, if_neg before.ne']
  intro i
  simp only [Grid.clearColumn, subtractRow, divideRow, cell_ofFn, if_true, pivotRow, zero_div, mul_zero, sub_zero]
  by_cases own : i = column
  · rw [if_pos own, if_pos own, own, if_neg before.ne', pivotRow, zero_div]
  · rw [if_neg own, if_neg own]
    exact swapped i

/-! ## Elimination -/

/-- What holds of the two grids when `g` is inverted and `columns` are still to be cleared: the columns left out are
done, and each of them is before all that are not. -/
structure Stage (g : Grid n n) (columns : List (Fin n)) (left right : Grid n n) : Prop where
  product : right.mul g = left
  rising : columns.Pairwise (· < ·)
  done : ∀ j, j ∈ columns ∨ left.UnitColumn j ∧ ∀ column ∈ columns, j < column

namespace Stage

variable {g left right : Grid n n} {column : Fin n} {columns : List (Fin n)}

theorem start (g : Grid n n) : Stage g (List.finRange n) g (identity n) where
  product := identity_mul g
  rising := List.pairwise_lt_finRange n
  done j := .inl (List.mem_finRange j)

theorem step (stage : Stage g (column :: columns) left right) {pivot : Fin n} (below : column ≤ pivot)
    (nonzero : left.cell pivot column ≠ 0) :
    Stage g columns (clearColumn column pivot left right).1 (clearColumn column pivot left right).2 where
  product := clearColumn_mul stage.product column pivot
  rising := stage.rising.of_cons
  done := by
    intro j
    rcases stage.done j with mem | ⟨unit, before⟩
    · rcases List.mem_cons.1 mem with rfl | mem
      · exact .inr ⟨clearColumn_unitColumn nonzero right, (List.pairwise_cons.1 stage.rising).1⟩
      · exact .inl mem
    · obtain ⟨first, later⟩ := List.forall_mem_cons.1 before
      exact .inr ⟨unit.clearColumn first below right, later⟩

theorem finish (stage : Stage g [] left right) : right.mul g = identity n := by
  rw [stage.product]
  apply eq_identity
  intro j
  rcases stage.done j with mem | ⟨unit, -⟩
  · cases mem
  · exact unit

/-- What elimination of the remaining columns gives is an inverse from the left. -/
theorem eliminate {rule : PivotRule n} {result : Grid n n} (stage : Stage g columns left right)
    (h : Grid.eliminate rule columns left right = .ok result) : result.mul g = identity n := by
  induction columns generalizing left right with
  | nil =>
    cases h
    exact stage.finish
  | cons column columns ih =>
    rw [Grid.eliminate] at h
    obtain ⟨⟨pivot, below⟩, -, h⟩ := Outcome.bind_eq_ok.1 h
    by_cases zero : left.cell pivot column = 0
    · rw [if_pos zero] at h
      exact absurd h Outcome.refuse_ne_ok
    · rw [if_neg zero] at h
      exact ih (stage.step below zero) h

end Stage

/-- What elimination over all columns gives is an inverse from the left. -/
theorem inverseWith_mul {rule : PivotRule n} {g inv : Grid n n} (h : g.inverseWith rule = .ok inv) :
    inv.mul g = identity n := by
  rw [inverseWith] at h
  split at h
  · exact absurd h Outcome.refuse_ne_ok
  · exact (Stage.start g).eliminate h

/-- Rules that both find an inverse find the same one. -/
theorem inverseWith_unique {rule rule' : PivotRule n} {g inv inv' : Grid n n} (h : g.inverseWith rule = .ok inv)
    (h' : g.inverseWith rule' = .ok inv') : inv = inv' :=
  eq_of_mul_eq_identity (inverseWith_mul h) (inverseWith_mul h')

end Grid

namespace Mat

/-- The inverse of a square matrix, with the pivots that a rule picks. -/
def inverseWith (m : Mat) (rule : Grid.PivotRule m.height) : Outcome Mat :=
  m.onSquare "inverse" fun g => do return m.sameSize (← g.inverseWith rule)

/-- An inverse comes from the grid of a square matrix. -/
theorem exists_of_inverseWith_eq_ok {m inv : Mat} {rule : Grid.PivotRule m.height} (h : m.inverseWith rule = .ok inv) :
    ∃ (square : m.width = m.height) (g : Grid m.height m.height),
      (m.grid.resize rfl square).inverseWith rule = .ok g ∧ inv = m.sameSize g := by
  rw [inverseWith, onSquare] at h
  split at h
  next square =>
    obtain ⟨g, found, h⟩ := Outcome.bind_eq_ok.1 h
    exact ⟨square, g, found, (Except.ok.inj h).symm⟩
  · exact absurd h Outcome.refuse_ne_ok

theorem identity_height (m : Mat) : identity m.height = .ok (m.sameSize (Grid.identity m.height)) :=
  dif_pos m.height_pos

/-- The calculator's inverse is elimination with the largest pivots. Elimination with any rule for the pivots, when it
gives a matrix, gives one of the same shape whose products with the given one, in both orders, are the identity. -/
theorem inverse_correct (m : Mat) :
    m.inverse = m.inverseWith Grid.largestPivot ∧
      ∀ (rule : Grid.PivotRule m.height) (inv : Mat), m.inverseWith rule = .ok inv →
        inv.shape = m.shape ∧
          ∃ one, identity m.height = .ok one ∧ m.mul inv = .ok one ∧ inv.mul m = .ok one := by
  refine ⟨rfl, ?_⟩
  intro rule inv h
  obtain ⟨square, g, found, rfl⟩ := exists_of_inverseWith_eq_ok h
  obtain ⟨height, width, height_pos, width_pos, grid⟩ := m
  obtain rfl : width = height := square
  have left : g.mul grid = Grid.identity width := Grid.inverseWith_mul found
  refine ⟨rfl, _, identity_height _, ?_, ?_⟩
  · simp only [mul, sameSize, dif_pos, Grid.resize_rfl, Grid.mul_eq_identity_comm left]
  · simp only [mul, sameSize, dif_pos, Grid.resize_rfl, left]

/-- A matrix of mixed cells and, where the largest pivot stands in its first row, one that stands below. -/
theorem inverse_correct_lastPivots :
    let m : Mat := ⟨2, 2, by decide, by decide, Grid.ofFn fun i j => if i = 1 then 1 else if j = 0 then 2 else ⟨0, 1⟩⟩
    let inv : Mat := ⟨2, 2, by decide, by decide, Grid.ofFn fun i j =>
      if i = 0 then if j = 0 then ⟨2 / 5, 1 / 5⟩ else ⟨1 / 5, -2 / 5⟩
      else if j = 0 then ⟨-2 / 5, -1 / 5⟩ else ⟨4 / 5, 2 / 5⟩⟩
    let rule : Grid.PivotRule m.height := fun _ _ => .ok ⟨Fin.last 1, Fin.le_last _⟩
    m.inverseWith rule = .ok inv ∧ inv.shape = m.shape ∧
      ∃ one, identity m.height = .ok one ∧ m.mul inv = .ok one ∧ inv.mul m = .ok one := by
  intro m inv rule
  have found : m.inverseWith rule = .ok inv := by decide +kernel
  exact ⟨found, (inverse_correct m).2 rule inv found⟩

end Mat

end Reckoner
