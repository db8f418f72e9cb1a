import Reckoner.Proofs.Mat.Determinant
import Reckoner.Proofs.Mat.Overflow
/-!
# Pivots

`Grid.exists_pivot`: whatever rule picks the pivots, elimination of a grid whose determinant is not zero finds in every
column that it clears a cell from the diagonal down that is not zero.

This is a fact about what the columns have in common. Row operations can be undone, so the left grid never takes more to
zero than the grid that is inverted, and that one takes only zero to zero. A column without a pivot would be a combination
of those before it, which are columns of the identity.
-/

namespace Reckoner.Grid

variable {n : Nat}

/-! ## Row operations keep what is not zero -/

section Operations

variable {r c : Nat} {g : Grid r c}

theorem eq_zero_iff : g = zero r c ↔ ∀ i j, g.cell i j = 0 := by
  refine ⟨fun h i j => by rw [h, zero, cell_ofFn], fun h => ext_cell fun i j => ?_⟩
  rw [h, zero, cell_ofFn]

theorem cell_swapRows (a b i : Fin r) (j : Fin c) : (g.swapRows a b).cell i j = g.cell (Equiv.swap a b i) j := by
  rw [swapRows, cell_ofFn, Equiv.swap_apply_def]

theorem swapRows_eq_zero {a b : Fin r} (h : g.swapRows a b = zero r c) : g = zero r c := by
  rw [eq_zero_iff] at h ⊢
  intro i j
  have back := h (Equiv.swap a b i) j
  rwa [cell_swapRows, Equiv.swap_apply_self] at back

theorem divideRow_eq_zero {row : Fin r} {divisor : Gaussian} (nonzero : divisor ≠ 0)
    (h : g.divideRow row divisor = zero r c) : g = zero r c := by
  rw [eq_zero_iff] at h ⊢
  intro i j
  have divided := h i j
  rw [divideRow, cell_ofFn] at divided
  split at divided
  · exact (div_eq_zero_iff.1 divided).resolve_right nonzero
  · exact divided

theorem subtractRow_eq_zero {row : Fin r} {factor : Fin r → Gaussian} (h : g.subtractRow row factor = zero r c) :
    g = zero r c := by
  rw [eq_zero_iff] at h ⊢
  have own : ∀ j, g.cell row j = 0 := by
    intro j
    have kept := h row j
    rwa [subtractRow, cell_ofFn, if_pos rfl] at kept
  intro i j
  have reduced := h i j
  rw [subtractRow, cell_ofFn, own, mul_zero, sub_zero, ite_self] at reduced
  exact reduced

end Operations

/-! ## Pivots -/

/-- Whether the grid takes no column but that of zeros to zero. -/
def Faithful (g : Grid n n) : Prop := ∀ a : Grid n 1, g.mul a = zero n 1 → a = zero n 1

theorem faithful_of_det_ne_zero {g : Grid n n} (h : g.det ≠ 0) : g.Faithful := by
  intro a product
  have invertible : IsUnit g.toMatrix.det := by
    rw [← det_toMatrix]
    exact isUnit_iff_ne_zero.2 h
  have none : (zero n 1).toMatrix = 0 := by
    apply Matrix.ext
    intro i j
    rw [toMatrix_apply, zero, cell_ofFn, Matrix.zero_apply]
  apply toMatrix_injective
  calc a.toMatrix = g.toMatrix⁻¹ * (g.toMatrix * a.toMatrix) := (Matrix.nonsing_inv_mul_cancel_left _ _ invertible).symm
    _ = (zero n 1).toMatrix := by rw [← toMatrix_mul, product, none, Matrix.mul_zero]

/-- Row operations with a pivot that is not zero take no more to zero. -/
theorem Faithful.clearColumn {left : Grid n n} (faithful : left.Faithful) {column pivot : Fin n}
    (nonzero : left.cell pivot column ≠ 0) (right : Grid n n) :
    (clearColumn column pivot left right).1.Faithful := by
  intro a product
  have divisor : (left.swapRows column pivot).cell column column ≠ 0 := by
    rw [swapRows, cell_ofFn, if_pos rfl]
    exact nonzero
  simp only [Grid.clearColumn, subtractRow_mul, divideRow_mul, swapRows_mul] at product
  exact faithful a (swapRows_eq_zero (divideRow_eq_zero divisor (subtractRow_eq_zero product)))

/-- Where the columns before are those of the identity, the next one has a pivot: were all its cells from the diagonal
down zero, it would be a combination of those before. -/
theorem Faithful.exists_pivot {left : Grid n n} (faithful : left.Faithful) {column : Fin n}
    (units : ∀ j < column, left.UnitColumn j) : ∃ row, column ≤ row ∧ left.cell row column ≠ 0 := by
  by_contra none
  have zeros : ∀ row, column ≤ row → left.cell row column = 0 := by
    intro row below
    by_contra nonzero
    exact none ⟨row, below, nonzero⟩
  let combination : Grid n 1 :=
    ofFn fun j _ => if j = column then 1 else if j < column then -left.cell j column else 0
  have term : ∀ i l, left.cell i l * combination.cell l 0 =
      (if l = column then left.cell i column else 0) - if l = i then left.cell l column else 0 := by
    intro i l
    rw [cell_ofFn]
    rcases lt_trichotomy l column with before | rfl | after
    · rw [if_neg before.ne, if_neg before.ne, if_pos before, units l before i, zero_sub]
      by_cases same : l = i
      · rw [if_pos same, if_pos same.symm, one_mul]
      · rw [if_neg same, if_neg (Ne.symm same), zero_mul, neg_zero]
    · rw [if_pos rfl, if_pos rfl, mul_one, zeros l le_rfl, ite_self, sub_zero]
    · rw [if_neg after.ne', if_neg after.ne', if_neg after.not_gt, mul_zero, zeros l after.le, ite_self, sub_zero]
  have vanishes : left.mul combination = zero n 1 := by
    rw [eq_zero_iff]
    intro i j
    rw [Subsingleton.elim j 0, cell_mul]
    simp only [term, Finset.sum_sub_distrib, Finset.sum_ite_eq', Finset.mem_univ, if_true, sub_self]
  have one := eq_zero_iff.1 (faithful combination vanishes) column 0
  rw [cell_ofFn, if_pos rfl] at one
  exact one_ne_zero one

/-- Every column that elimination clears has a pivot, whatever the rule. -/
theorem Stage.exists_pivot {g : Grid n n} {rule : PivotRule n} {columns : List (Fin n)} {left right : Grid n n}
    (stage : Stage g columns left right) (faithful : left.Faithful) :
    ∀ s ∈ stages rule columns left, ∃ row, s.1 ≤ row ∧ s.2.cell row s.1 ≠ 0 := by
  have none : ∀ s ∈ ([] : List (Fin n × Grid n n)), ∃ row, s.1 ≤ row ∧ s.2.cell row s.1 ≠ 0 := by simp
  induction columns generalizing left right with
  | nil => exact none
  | cons column columns ih =>
    have units : ∀ j < column, left.UnitColumn j := by
      intro j before
      rcases stage.done j with mem | ⟨unit, -⟩
      · rcases List.mem_cons.1 mem with rfl | mem
        · exact absurd before (lt_irrefl _)
        · exact absurd before ((List.pairwise_cons.1 stage.rising).1 j mem).not_gt
      · exact unit
    rw [stages, List.forall_mem_cons]
    refine ⟨faithful.exists_pivot units, ?_⟩
    cases rule column left with
    | error e => exact none
    | ok pivot =>
      by_cases zero : left.cell pivot column = 0
      · simp only [zero, if_true]
        exact none
      · simp only [zero, if_false]
        exact ih (stage.step pivot.property zero) (faithful.clearColumn zero left)

/-- Every column that elimination of a grid clears has a pivot, if the determinant is not zero. -/
theorem exists_pivot {g : Grid n n} (regular : g.det ≠ 0) (rule : PivotRule n) :
    ∀ s ∈ stages rule (List.finRange n) g, ∃ row, s.1 ≤ row ∧ s.2.cell row s.1 ≠ 0 :=
  (Stage.start g).exists_pivot (faithful_of_det_ne_zero regular)

end Reckoner.Grid
