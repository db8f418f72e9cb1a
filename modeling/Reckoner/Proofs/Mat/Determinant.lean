import Mathlib.LinearAlgebra.Matrix.Determinant.Basic
import Reckoner.Proofs.Mat.Inverse
/-!
# Determinants

`Mat.determinant_correct`: the determinant of a square matrix is the sum over all permutations, and it is multiplicative.

The determinant is the one of the matrix over the field of cells. The expansion along the first row goes down to two rows,
for which there is a closed form; a zero cell that is skipped would have contributed a zero.
-/

namespace Reckoner

namespace Grid

variable {n : Nat}

/-! ## Expansion -/

theorem skip_eq_succAbove (j : Fin (n + 1)) (i : Fin n) : skip j i = j.succAbove i := rfl

theorem toMatrix_minor (g : Grid (n + 1) (n + 1)) (j : Fin (n + 1)) :
    (g.minor j).toMatrix = g.toMatrix.submatrix Fin.succ j.succAbove := by
  apply Matrix.ext
  intro i l
  rw [toMatrix_apply, minor, cell_ofFn, skip_eq_succAbove, Matrix.submatrix_apply, toMatrix_apply]

/-- The sign with which a column goes into the expansion. -/
theorem signed_eq (j : Nat) (z : Gaussian) : (if j % 2 = 0 then z else -z) = (-1) ^ j * z := by
  rcases Nat.even_or_odd j with even | odd
  · rw [if_pos (Nat.even_iff.1 even), even.neg_one_pow, one_mul]
  · rw [if_neg (Nat.mod_two_ne_zero.2 (Nat.odd_iff.1 odd)), odd.neg_one_pow, neg_one_mul]

/-- The determinant of a grid is the one of its matrix. -/
theorem det_toMatrix {n : Nat} (g : Grid n n) : g.det = g.toMatrix.det := by
  -- The induction is that of the expansion, from the minors to the grid.
  induction g using det.induct with
  | case1 g => rw [det, Matrix.det_isEmpty]
  | case2 g => rw [det, Matrix.det_fin_one, toMatrix_apply]
  | case3 g =>
    rw [det, Matrix.det_fin_two]
    rfl
  | case4 n g ih =>
    have term : ∀ j, (if g.cell 0 j = 0 then 0
        else if j.val % 2 = 0 then g.cell 0 j * (g.minor j).det else -(g.cell 0 j * (g.minor j).det)) =
        (-1) ^ j.val * g.toMatrix 0 j * (g.toMatrix.submatrix Fin.succ j.succAbove).det := by
      intro j
      rw [toMatrix_apply, ← toMatrix_minor]
      split
      next zero => rw [zero, mul_zero, zero_mul]
      next => rw [signed_eq, ih j, mul_assoc]
    rw [det, Matrix.det_succ_row_zero, Fin.sum_univ_def]
    simp only [term]

/-- The determinant as a sum over permutations. -/
theorem det_eq_sum (g : Grid n n) : g.det = ∑ σ : Equiv.Perm (Fin n), Equiv.Perm.sign σ • ∏ i, g.cell i (σ i) := by
  rw [det_toMatrix, ← Matrix.det_transpose, Matrix.det_apply]
  rfl

theorem det_mul (g h : Grid n n) : (g.mul h).det = g.det * h.det := by
  rw [det_toMatrix, det_toMatrix, det_toMatrix, toMatrix_mul, Matrix.det_mul]

theorem cell_resize {r c c' : Nat} (width : c = c') (g : Grid r c) (i : Fin r) (j : Fin c') :
    (g.resize rfl width).cell i j = g.cell i (j.cast width.symm) := by
  subst width
  rfl

end Grid

namespace Mat

theorem determinant_eq {m : Mat} (square : m.width = m.height) :
    m.determinant = .ok (m.grid.resize rfl square).det := dif_pos square

/-- The product of two square matrices of one size, with the determinants of all three. -/
theorem determinant_mul {a b : Mat} (squareA : a.width = a.height) (squareB : b.width = b.height)
    (same : a.height = b.height) : ∃ (product : Mat) (x y : Gaussian), a.mul b = .ok product ∧ a.determinant = .ok x ∧
      b.determinant = .ok y ∧ product.determinant = .ok (x * y) := by
  obtain ⟨height, width, height_pos, width_pos, g⟩ := a
  obtain ⟨height', width', height_pos', width_pos', h⟩ := b
  obtain rfl : width = height := squareA
  obtain rfl : width' = height' := squareB
  obtain rfl : width = width' := same
  refine ⟨_, _, _, dif_pos rfl, determinant_eq rfl, determinant_eq rfl, ?_⟩
  rw [determinant_eq rfl]
  exact congrArg Except.ok (Grid.det_mul g h)

/-- A square matrix has a determinant: the sum over all permutations of the signed products of the cells that they pick,
one in each row. The determinant of a product is the product of the determinants. -/
theorem determinant_correct :
    (∀ (m : Mat) (square : m.width = m.height), m.determinant = .ok (∑ σ : Equiv.Perm (Fin m.height),
        Equiv.Perm.sign σ • ∏ i, m.grid.cell i ((σ i).cast square.symm))) ∧
      ∀ a b : Mat, a.width = a.height → b.width = b.height → a.height = b.height →
        ∃ (product : Mat) (x y : Gaussian), a.mul b = .ok product ∧ a.determinant = .ok x ∧ b.determinant = .ok y ∧
          product.determinant = .ok (x * y) := by
  refine ⟨fun m square => ?_, fun a b => determinant_mul⟩
  rw [determinant_eq square, Grid.det_eq_sum]
  simp only [Grid.cell_resize]

/-- Matrices of three rows, of which one has complex cells and a zero in its first row. -/
theorem determinant_correct_threeRows :
    let a : Mat := ⟨3, 3, by decide, by decide, Grid.ofFn fun i j => if i = j then ⟨0, 1⟩ else if i < j then 0 else 2⟩
    let b : Mat := ⟨3, 3, by decide, by decide, Grid.ofFn fun i j => if i = j then 0 else ⟨1 / 2, 0⟩⟩
    b.determinant = .ok (∑ σ : Equiv.Perm (Fin 3), Equiv.Perm.sign σ • ∏ i, b.grid.cell i (σ i)) ∧
      a.determinant = .ok ⟨0, -1⟩ ∧ b.determinant = .ok ⟨1 / 4, 0⟩ ∧
        ∃ (product : Mat) (x y : Gaussian), a.mul b = .ok product ∧ a.determinant = .ok x ∧ b.determinant = .ok y ∧
          product.determinant = .ok (x * y) := by
  intro a b
  exact ⟨determinant_correct.1 b rfl, by decide +kernel, by decide +kernel, determinant_correct.2 a b rfl rfl rfl⟩

end Mat

end Reckoner
