import Mathlib.Algebra.Order.BigOperators.Group.Finset
import Mathlib.Order.Bounds.Basic
import Reckoner.Mat.Access
import Reckoner.Proofs.Gaussian.Size
import Reckoner.Proofs.Lists
import Reckoner.Proofs.Mat.Algebra
/-!
# The norm of a matrix

The norm of a matrix of rational numbers is the largest sum of absolute values in a column.

Main statement: it is zero for the zero matrix only, a factor comes out of it by its absolute value, the norm of a sum is
at most the sum of the norms, and the norm of a product at most their product. Each of these is a fact about one column,
`Grid.columnSum`, taken to the largest one.
-/

namespace Reckoner

namespace Gaussian

theorem re_sum {n : Nat} (f : Fin n → Gaussian) : (∑ i, f i).re = ∑ i, (f i).re :=
  map_sum (⟨⟨re, zero_re⟩, add_re⟩ : Gaussian →+ Rat) f Finset.univ

theorem im_sum {n : Nat} (f : Fin n → Gaussian) : (∑ i, f i).im = ∑ i, (f i).im :=
  map_sum (⟨⟨im, zero_im⟩, add_im⟩ : Gaussian →+ Rat) f Finset.univ

/-- The size of a rational number is its absolute value, without rounding. -/
theorem abs_of_real {z : Gaussian} (real : z.im = 0) (places : Nat) : z.abs places = .ok |z.re| := by
  have square : z.re * z.re = z.normSquared := by rw [normSquared, real, mul_zero, add_zero]
  rw [abs_of_square square, Rational.abs_eq]

end Gaussian

/-! ## Columns -/

namespace Grid

variable {r c k : Nat} {n q : Rat}

/-- No cell has an imaginary part. -/
def IsReal (g : Grid r c) : Prop := ∀ i j, (g.cell i j).im = 0

/-- The sum of the absolute values of the real parts of a column. -/
def columnSum (g : Grid r c) (j : Fin c) : Rat := ∑ i, |(g.cell i j).re|

theorem columnSum_nonneg (g : Grid r c) (j : Fin c) : 0 ≤ g.columnSum j :=
  Finset.sum_nonneg fun _ _ => abs_nonneg _

theorem columnSum_eq_zero {g : Grid r c} {j : Fin c} : g.columnSum j = 0 ↔ ∀ i, (g.cell i j).re = 0 := by
  rw [columnSum, Finset.sum_eq_zero_iff_of_nonneg fun _ _ => abs_nonneg _]
  simp only [Finset.mem_univ, abs_eq_zero, true_imp_iff]

theorem columnSum_scale (g : Grid r c) (q : Rat) (j : Fin c) :
    (g.map (· * .ofRat q)).columnSum j = |q| * g.columnSum j := by
  simp only [columnSum, cell_map, Gaussian.mul_re, Gaussian.ofRat_re, Gaussian.ofRat_im, mul_zero, sub_zero, abs_mul,
    mul_comm |q|, Finset.sum_mul]

theorem columnSum_add_le (g h : Grid r c) (j : Fin c) :
    (g.zipWith (· + ·) h).columnSum j ≤ g.columnSum j + h.columnSum j := by
  have cells : ∀ i, |((g.zipWith (· + ·) h).cell i j).re| ≤ |(g.cell i j).re| + |(h.cell i j).re| := by
    intro i
    rw [zipWith, cell_ofFn, Gaussian.add_re]
    exact abs_add_le _ _
  calc (g.zipWith (· + ·) h).columnSum j ≤ ∑ i, (|(g.cell i j).re| + |(h.cell i j).re|) :=
        Finset.sum_le_sum fun i _ => cells i
    _ = g.columnSum j + h.columnSum j := Finset.sum_add_distrib

theorem IsReal.re_cell_mul {g : Grid r k} (real : g.IsReal) (h : Grid k c) (i : Fin r) (j : Fin c) :
    ((g.mul h).cell i j).re = ∑ l, (g.cell i l).re * (h.cell l j).re := by
  rw [cell_mul, Gaussian.re_sum]
  refine Finset.sum_congr rfl fun l _ => ?_
  rw [Gaussian.mul_re, real i l, zero_mul, sub_zero]

/-- A column of a product weighs the columns of the left factor by the cells of a column of the right one. -/
theorem columnSum_mul_le {g : Grid r k} (real : g.IsReal) (bound : ∀ l, g.columnSum l ≤ n) (h : Grid k c) (j : Fin c) :
    (g.mul h).columnSum j ≤ n * h.columnSum j := by
  have cells : ∀ i, |((g.mul h).cell i j).re| ≤ ∑ l, |(g.cell i l).re| * |(h.cell l j).re| := by
    intro i
    rw [real.re_cell_mul]
    refine (Finset.abs_sum_le_sum_abs _ _).trans_eq ?_
    simp only [abs_mul]
  calc (g.mul h).columnSum j ≤ ∑ i, ∑ l, |(g.cell i l).re| * |(h.cell l j).re| := Finset.sum_le_sum fun i _ => cells i
    _ = ∑ l, ∑ i, |(g.cell i l).re| * |(h.cell l j).re| := Finset.sum_comm
    _ = ∑ l, g.columnSum l * |(h.cell l j).re| := by simp only [columnSum, Finset.sum_mul]
    _ ≤ ∑ l, n * |(h.cell l j).re| :=
        Finset.sum_le_sum fun l _ => mul_le_mul_of_nonneg_right (bound l) (abs_nonneg _)
    _ = n * h.columnSum j := by rw [columnSum, Finset.mul_sum]

theorem IsReal.scale {g : Grid r c} (real : g.IsReal) (q : Rat) : (g.map (· * .ofRat q)).IsReal := by
  intro i j
  rw [cell_map, Gaussian.mul_im, real i j, Gaussian.ofRat_im, mul_zero, zero_mul, add_zero]

theorem IsReal.add {g h : Grid r c} (left : g.IsReal) (right : h.IsReal) : (g.zipWith (· + ·) h).IsReal := by
  intro i j
  rw [zipWith, cell_ofFn, Gaussian.add_im, left i j, right i j, add_zero]

theorem IsReal.mul {g : Grid r k} {h : Grid k c} (left : g.IsReal) (right : h.IsReal) : (g.mul h).IsReal := by
  intro i j
  have products : ∀ l, (g.cell i l * h.cell l j).im = 0 := by
    intro l
    rw [Gaussian.mul_im, left i l, right l j, mul_zero, zero_mul, add_zero]
  rw [cell_mul, Gaussian.im_sum]
  exact Finset.sum_eq_zero fun l _ => products l

/-- A grid without imaginary parts is zero if all its columns are. -/
theorem IsReal.isZero_iff {g : Grid r c} (real : g.IsReal) : g.isZero = true ↔ ∀ j, g.columnSum j = 0 := by
  simp only [columnSum_eq_zero, isZero, beq_iff_eq]
  constructor
  · rintro rfl j i
    rw [zero, cell_ofFn, Gaussian.zero_re]
  · intro parts
    refine ext_cell fun i j => ?_
    rw [zero, cell_ofFn]
    exact Gaussian.ext (parts j i) (real i j)

end Grid

/-! ## The largest column -/

namespace Mat

variable {a b m : Mat} {places : Nat} {n q : Rat}

theorem isRational_iff : m.isRational = true ↔ m.grid.IsReal := by
  simp [isRational, rows, Grid.toLists, Grid.IsReal]

/-- A running sum of outcomes that are all numbers. -/
theorem foldlM_add_eq_ok {α : Type} {f : α → Outcome Rat} {g : α → Rat} (h : ∀ a, f a = .ok (g a)) (as : List α)
    (total : Rat) : as.foldlM (fun total a => do return total + (← f a)) total = .ok (total + (as.map g).sum) := by
  induction as generalizing total with
  | nil =>
    rw [List.map_nil, List.sum_nil, add_zero]
    rfl
  | cons a as ih =>
    rw [List.foldlM_cons, h a, List.map_cons, List.sum_cons, ← add_assoc]
    exact ih (total + g a)

theorem columnSize_eq (real : m.grid.IsReal) (places : Nat) (j : Fin m.width) :
    m.columnSize places j = .ok (m.grid.columnSum j) := by
  have sizes : ∀ i, (m.grid.cell i j).abs places = .ok |(m.grid.cell i j).re| := fun i =>
    Gaussian.abs_of_real (real i j) places
  rw [columnSize, foldlM_add_eq_ok sizes, zero_add, Grid.columnSum, Fin.sum_univ_def]

theorem larger_eq (x y : Rat) : larger x y = max x y := (max_def_lt x y).symm

/-- The largest of some numbers and one more is one of them, and none is larger. -/
theorem isGreatest_foldl_larger (sizes : List Rat) (least : Rat) :
    IsGreatest {x | x ∈ least :: sizes} (sizes.foldl larger least) := by
  induction sizes generalizing least with
  | nil => simp
  | cons x sizes ih =>
    obtain ⟨mem, upper⟩ := ih (larger least x)
    have both : least ≤ sizes.foldl larger (larger least x) ∧ x ≤ sizes.foldl larger (larger least x) := by
      rw [← max_le_iff, ← larger_eq]
      exact upper (List.mem_cons_self ..)
    constructor
    · rcases List.mem_cons.1 mem with same | later
      · rw [List.foldl_cons, same, larger_eq]
        rcases max_choice least x with first | second
        · rw [first]
          exact List.mem_cons_self ..
        · rw [second]
          exact List.mem_cons_of_mem _ (List.mem_cons_self ..)
      · exact List.mem_cons_of_mem _ (List.mem_cons_of_mem _ later)
    · intro y listed
      rcases List.mem_cons.1 listed with rfl | listed
      · exact both.1
      · rcases List.mem_cons.1 listed with rfl | later
        · exact both.2
        · exact upper (List.mem_cons_of_mem _ later)

/-- The norm of a matrix of rational numbers is the largest sum of a column. -/
theorem norm_spec (real : m.grid.IsReal) (places : Nat) :
    ∃ n, m.norm places = .ok n ∧ IsGreatest (Set.range m.grid.columnSum) n := by
  have sizes : (List.finRange m.width).mapM (m.columnSize places) =
      .ok ((List.finRange m.width).map m.grid.columnSum) :=
    Lists.mapM_eq_ok fun j _ => columnSize_eq real places j
  refine ⟨((List.finRange m.width).map m.grid.columnSum).foldl larger 0, by rw [norm, sizes]; rfl, ?_⟩
  obtain ⟨mem, upper⟩ := isGreatest_foldl_larger ((List.finRange m.width).map m.grid.columnSum) 0
  have bound : ∀ j, m.grid.columnSum j ≤ ((List.finRange m.width).map m.grid.columnSum).foldl larger 0 := fun j =>
    upper (List.mem_cons_of_mem _ (List.mem_map_of_mem (List.mem_finRange j)))
  constructor
  · rcases List.mem_cons.1 mem with zero | attained
    -- Zero is the start of the comparison; it is the result only if a column is zero too.
    · have first := bound ⟨0, m.width_pos⟩
      rw [zero] at first ⊢
      exact ⟨_, first.antisymm (Grid.columnSum_nonneg _ _)⟩
    · obtain ⟨j, -, same⟩ := List.mem_map.1 attained
      exact ⟨j, same⟩
  · rintro _ ⟨j, rfl⟩
    exact bound j

theorem isGreatest_of_norm (real : m.grid.IsReal) (norm : m.norm places = .ok n) :
    IsGreatest (Set.range m.grid.columnSum) n := by
  obtain ⟨n', norm', greatest⟩ := norm_spec real places
  cases norm.symm.trans norm'
  exact greatest

theorem columnSum_le (real : m.grid.IsReal) (norm : m.norm places = .ok n) (j : Fin m.width) :
    m.grid.columnSum j ≤ n :=
  (isGreatest_of_norm real norm).2 ⟨j, rfl⟩

/-- What bounds the columns bounds the norm. -/
theorem norm_le (real : m.grid.IsReal) (norm : m.norm places = .ok n) {x : Rat}
    (bound : ∀ j, m.grid.columnSum j ≤ x) : n ≤ x := by
  obtain ⟨⟨j, rfl⟩, -⟩ := isGreatest_of_norm real norm
  exact bound j

theorem norm_nonneg (real : m.grid.IsReal) (norm : m.norm places = .ok n) : 0 ≤ n :=
  (m.grid.columnSum_nonneg _).trans (columnSum_le real norm ⟨0, m.width_pos⟩)

theorem norm_eq_zero (real : m.grid.IsReal) (norm : m.norm places = .ok n) : n = 0 ↔ m.isZero = true := by
  rw [isZero, real.isZero_iff]
  constructor
  · rintro rfl j
    exact (columnSum_le real norm j).antisymm (m.grid.columnSum_nonneg j)
  · intro zero
    exact (norm_le real norm fun j => (zero j).le).antisymm (norm_nonneg real norm)

theorem norm_scale (real : m.grid.IsReal) (norm : m.norm places = .ok n) (q : Rat) :
    (m.scale (.ofRat q)).norm places = .ok (|q| * n) := by
  obtain ⟨k, norm', greatest⟩ := norm_spec (m := m.scale (.ofRat q)) (real.scale q) places
  have largest : IsGreatest (Set.range (m.scale (.ofRat q)).grid.columnSum) (|q| * n) := by
    obtain ⟨⟨j, attained⟩, upper⟩ := isGreatest_of_norm real norm
    refine ⟨⟨j, by rw [← attained]; exact m.grid.columnSum_scale q j⟩, ?_⟩
    rintro _ ⟨j, rfl⟩
    exact (m.grid.columnSum_scale q j).trans_le (mul_le_mul_of_nonneg_left (upper ⟨j, rfl⟩) (abs_nonneg q))
  rw [norm', greatest.unique largest]

theorem exists_norm_add (left : a.grid.IsReal) (right : b.grid.IsReal) (sum : a.add b = .ok m) (places : Nat) :
    ∃ k l n, a.norm places = .ok k ∧ b.norm places = .ok l ∧ m.norm places = .ok n ∧ n ≤ k + l := by
  obtain ⟨k, first, -⟩ := norm_spec left places
  obtain ⟨l, second, -⟩ := norm_spec right places
  have bound := columnSum_le left first
  have bound' := columnSum_le right second
  obtain ⟨height, width, rfl⟩ := add_eq_ok sum
  obtain ⟨r, c, hr, hc, g⟩ := a
  obtain ⟨r', c', _, _, h⟩ := b
  obtain rfl : r' = r := height
  obtain rfl : c' = c := width
  have real : (g.zipWith (· + ·) h).IsReal := left.add right
  obtain ⟨n, third, -⟩ := norm_spec (m := ⟨r', c', hr, hc, g.zipWith (· + ·) h⟩) real places
  refine ⟨k, l, n, first, second, third, norm_le real third fun j => ?_⟩
  calc (g.zipWith (· + ·) h).columnSum j ≤ g.columnSum j + h.columnSum j := g.columnSum_add_le h j
    _ ≤ k + l := add_le_add (bound j) (bound' j)

theorem exists_norm_mul (left : a.grid.IsReal) (right : b.grid.IsReal) (product : a.mul b = .ok m) (places : Nat) :
    ∃ k l n, a.norm places = .ok k ∧ b.norm places = .ok l ∧ m.norm places = .ok n ∧ n ≤ k * l := by
  obtain ⟨k, first, -⟩ := norm_spec left places
  obtain ⟨l, second, -⟩ := norm_spec right places
  have nonneg := norm_nonneg left first
  have bound := columnSum_le left first
  have bound' := columnSum_le right second
  obtain ⟨fit, rfl⟩ := mul_eq_ok_iff.1 product
  obtain ⟨r, c, hr, _, g⟩ := a
  obtain ⟨c', d, _, hd, h⟩ := b
  obtain rfl : c' = c := fit
  have real : (g.mul h).IsReal := left.mul right
  obtain ⟨n, third, -⟩ := norm_spec (m := ⟨r, d, hr, hd, g.mul h⟩) real places
  refine ⟨k, l, n, first, second, third, norm_le real third fun j => ?_⟩
  calc (g.mul h).columnSum j ≤ k * h.columnSum j := Grid.columnSum_mul_le left bound h j
    _ ≤ k * l := mul_le_mul_of_nonneg_left (bound' j) nonneg

end Mat

/-! ## Operators on data -/

namespace Datum

variable {a b : Mat} {s : Datum} {q : Rat}

/-- The laws of the norm of two matrices of rational numbers, with `s` as a factor that stands for `q`. Norms are asked
for with a number of decimals. -/
structure NormLaws (places : Nat) (a b : Mat) (s : Datum) (q : Rat) : Prop where
  definite : ∃ n, a.norm places = .ok n ∧ 0 ≤ n ∧ (n = 0 ↔ a.isZero = true)
  homogeneous : ∃ n m, a.norm places = .ok n ∧ operate .times s (ofMat a) = .ok (ofMat m) ∧
    m.norm places = .ok (Rational.abs q * n)
  subadditive : a.shape = b.shape → ∃ k l m n, a.norm places = .ok k ∧ b.norm places = .ok l ∧
    operate .plus (ofMat a) (ofMat b) = .ok (ofMat m) ∧ m.norm places = .ok n ∧ n ≤ k + l
  submultiplicative : a.width = b.height → ∃ k l m n, a.norm places = .ok k ∧ b.norm places = .ok l ∧
    operate .matrixTimes (ofMat a) (ofMat b) = .ok (ofMat m) ∧ m.norm places = .ok n ∧ n ≤ k * l

/-- The norm of matrices of rational numbers, of any shapes, is a norm, and that of a product is at most the product of
the norms. -/
theorem norm_laws (places : Nat) (left : a.isRational = true) (right : b.isRational = true)
    (hs : s.operand? = some (Value.rational q)) : NormLaws places a b s q := by
  rw [Mat.isRational_iff] at left right
  obtain ⟨n, norm, -⟩ := Mat.norm_spec left places
  constructor
  case definite => exact ⟨n, norm, Mat.norm_nonneg left norm, Mat.norm_eq_zero left norm⟩
  case homogeneous =>
    refine ⟨n, _, norm, times_ofMat hs a, ?_⟩
    rw [Rational.abs_eq]
    exact Mat.norm_scale left norm q
  case subadditive =>
    intro shapes
    obtain ⟨m, sum, -⟩ := Mat.add_of_fit shapes
    obtain ⟨k, l, n, first, second, third, bound⟩ := Mat.exists_norm_add left right sum places
    exact ⟨k, l, m, n, first, second, operate_add_eq_ok sum, third, bound⟩
  case submultiplicative =>
    intro fit
    obtain ⟨m, product, -⟩ := Mat.mul_of_fit fit
    obtain ⟨k, l, n, first, second, third, bound⟩ := Mat.exists_norm_mul left right product places
    exact ⟨k, l, m, n, first, second, operate_mul_eq_ok product, third, bound⟩

/-- A matrix with the rows `[1, -2, 0]` and `[0, 1, -2]`. -/
def slantedRows : Mat :=
  ⟨2, 3, by omega, by omega, .ofFn fun i j => if i.val = j.val then 1 else if j.val = i.val + 1 then -2 else 0⟩

theorem norm_laws_slantedRows : slantedRows.isRational = true ∧ slantedRows.transpose.isRational = true ∧
    (Datum.integer (-2)).operand? = some (Value.rational (-2)) ∧ slantedRows.width = slantedRows.transpose.height ∧
      NormLaws 10 slantedRows slantedRows (.integer (-2)) (-2) ∧
        NormLaws 10 slantedRows slantedRows.transpose (.integer (-2)) (-2) := by
  have left : slantedRows.isRational = true := by decide +kernel
  have right : slantedRows.transpose.isRational = true := by decide +kernel
  have scalar : (Datum.integer (-2)).operand? = some (Value.rational (-2)) := rfl
  exact ⟨left, right, scalar, rfl, norm_laws 10 left left scalar, norm_laws 10 left right scalar⟩

end Datum

end Reckoner
