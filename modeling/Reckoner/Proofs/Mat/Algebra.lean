import Reckoner.Proofs.Poly.Coeff
import Reckoner.Proofs.Value.Exactness
/-!
# The algebra of matrices

`matrix_algebra`: sums and products of matrices are refused where the shapes do not fit and else obey the laws of matrices
over a field, together with transposition, identity matrices and numbers as factors and divisors.

Each law is one of matrices over Q(i). A grid stands for such a matrix, with one lemma an operation.
-/

namespace Reckoner

/-! ## Grids -/

namespace Grid

variable {r c k : Nat}

theorem mul_add (g : Grid r k) (h l : Grid k c) : g.mul (h.zipWith (· + ·) l) = (g.mul h).zipWith (· + ·) (g.mul l) := by
  apply toMatrix_injective
  simp only [toMatrix_mul, toMatrix_add, Matrix.mul_add]

theorem add_mul (g h : Grid r k) (l : Grid k c) : (g.zipWith (· + ·) h).mul l = (g.mul l).zipWith (· + ·) (h.mul l) := by
  apply toMatrix_injective
  simp only [toMatrix_mul, toMatrix_add, Matrix.add_mul]

theorem transpose_mul (g : Grid r k) (h : Grid k c) : (g.mul h).transpose = h.transpose.mul g.transpose := by
  apply toMatrix_injective
  simp only [toMatrix_mul, toMatrix_transpose, Matrix.transpose_mul]

theorem map_div (g : Grid r c) {z : Gaussian} (nonzero : z ≠ 0) : (g.map (· * z)).map (· / z) = g :=
  ext_cell fun i j => by simp only [cell_map, mul_div_cancel_right₀ _ nonzero]

end Grid

/-! ## Matrices -/

namespace Mat

variable {a b c m : Mat}

theorem mul_of_fit (fit : a.width = b.height) : ∃ m, a.mul b = .ok m ∧ m.shape = (a.height, b.width) :=
  ⟨_, mul_eq_ok_iff.2 ⟨fit.symm, rfl⟩, rfl⟩

theorem mul_of_unfit (unfit : a.width ≠ b.height) :
    a.mul b = refuse (.dimensionMismatch "multiplication" a.shape b.shape) := dif_neg unfit.symm

theorem add_of_fit (fit : a.shape = b.shape) : ∃ m, a.add b = .ok m ∧ m.shape = a.shape :=
  ⟨_, dif_pos ⟨(congrArg Prod.fst fit).symm, (congrArg Prod.snd fit).symm⟩, rfl⟩

theorem add_of_unfit (unfit : a.shape ≠ b.shape) :
    a.add b = refuse (.dimensionMismatch "addition" a.shape b.shape) :=
  dif_neg fun fit => unfit (Prod.ext fit.1.symm fit.2.symm)

/-- The product with a sum is the sum of the products. -/
theorem mul_add (sum : b.add c = .ok m) (fit : a.width = b.height) :
    ∃ ab ac l, a.mul b = .ok ab ∧ a.mul c = .ok ac ∧ ab.add ac = .ok l ∧ a.mul m = .ok l := by
  -- The sizes come first: once they agree, the law is one of grids.
  obtain ⟨height, width, rfl⟩ := add_eq_ok sum
  obtain ⟨r, k, _, _, g⟩ := a
  obtain ⟨k', n, _, _, h⟩ := b
  obtain ⟨k'', n', _, _, l⟩ := c
  obtain rfl : k'' = k' := height
  obtain rfl : n' = n := width
  obtain rfl : k = k'' := fit
  refine ⟨_, _, _, dif_pos rfl, dif_pos rfl, dif_pos ⟨rfl, rfl⟩, ?_⟩
  simp only [mul, dif_pos, Grid.resize_rfl, Grid.mul_add]

/-- The product of a sum is the sum of the products. -/
theorem add_mul (sum : a.add b = .ok m) (fit : a.width = c.height) :
    ∃ ac bc l, a.mul c = .ok ac ∧ b.mul c = .ok bc ∧ ac.add bc = .ok l ∧ m.mul c = .ok l := by
  obtain ⟨height, width, rfl⟩ := add_eq_ok sum
  obtain ⟨r, k, _, _, g⟩ := a
  obtain ⟨r', k', _, _, h⟩ := b
  obtain ⟨k'', n, _, _, l⟩ := c
  obtain rfl : r' = r := height
  obtain rfl : k' = k := width
  obtain rfl : k' = k'' := fit
  refine ⟨_, _, _, dif_pos rfl, dif_pos rfl, dif_pos ⟨rfl, rfl⟩, ?_⟩
  simp only [mul, dif_pos, Grid.resize_rfl, Grid.add_mul]

theorem identity_mul (m : Mat) : ∃ i, identity m.height = .ok i ∧ i.mul m = .ok m := by
  refine ⟨_, dif_pos m.height_pos, ?_⟩
  simp only [mul, dif_pos, Grid.resize_rfl, Grid.identity_mul]

theorem mul_identity (m : Mat) : ∃ i, identity m.width = .ok i ∧ m.mul i = .ok m := by
  refine ⟨_, dif_pos m.width_pos, ?_⟩
  simp only [mul, dif_pos, Grid.resize_rfl, Grid.mul_identity]

/-- The transpose of a product is the product of the transposes, the other way round. -/
theorem transpose_mul (product : a.mul b = .ok m) : b.transpose.mul a.transpose = .ok m.transpose := by
  obtain ⟨fit, rfl⟩ := mul_eq_ok_iff.1 product
  obtain ⟨r, k, _, _, g⟩ := a
  obtain ⟨k', c, _, _, h⟩ := b
  obtain rfl : k' = k := fit
  refine mul_eq_ok_iff.2 ⟨rfl, ?_⟩
  simp only [transpose, Grid.resize_rfl, Grid.transpose_mul]

/-- Dividing undoes multiplying. -/
theorem scaleDown_scale (m : Mat) {z : Gaussian} (nonzero : z ≠ 0) : (m.scale z).scaleDown z = .ok m := by
  rw [scaleDown, if_neg nonzero]
  simp only [scale, map, Grid.map_div _ nonzero]

end Mat

/-! ## Operators on data -/

namespace Datum

open Mat (mul_of_fit mul_of_unfit add_of_fit add_of_unfit)

variable {a b c m : Mat} {s : Datum} {x : Number} {o p : Outcome Datum}

/-- A matrix as data. -/
def ofMat (m : Mat) : Datum := .value (.matrix m)

/-- Both outcomes are matrices, and the two are equal. -/
def SameMatrix (o p : Outcome Datum) : Prop :=
  ∃ l m : Mat, o = .ok (ofMat l) ∧ p = .ok (ofMat m) ∧ (ofMat l).same (ofMat m) = .ok true

theorem sameMatrix_of_eq_ok (left : o = .ok (ofMat m)) (right : p = .ok (ofMat m)) : SameMatrix o p := by
  have equal : (Value.matrix m).same (.matrix m) = true := beq_self_eq_true m
  exact ⟨m, m, left, right, (same_of_operands rfl rfl).trans (congrArg Except.ok equal)⟩

theorem operate_mul : operate .matrixTimes (ofMat a) (ofMat b) = (a.mul b).map ofMat := by
  show (do return .value (.matrix (← a.mul b)) : Outcome Datum) = _
  cases a.mul b <;> rfl

theorem operate_add : operate .plus (ofMat a) (ofMat b) = (a.add b).map ofMat := by
  show ((a.add b).map Value.matrix).map Datum.value = _
  cases a.add b <;> rfl

section Scalar

variable (hs : s.operand? = some (.number x))
include hs

theorem times_ofMat (m : Mat) : operate .times s (ofMat m) = .ok (ofMat (m.scale x.toGaussian)) := by
  have operand : (ofMat m).operand? = some (.matrix m) := rfl
  exact operate_of_operands hs operand (by simp [ofMat, plainInteger?]) rfl (by simp)

theorem ofMat_times (m : Mat) : operate .times (ofMat m) s = .ok (ofMat (m.scale x.toGaussian)) := by
  have operand : (ofMat m).operand? = some (.matrix m) := rfl
  exact operate_of_operands operand hs (by simp [ofMat, plainInteger?]) rfl (by simp)

theorem ofMat_divide (m : Mat) : operate .divide (ofMat m) s = (m.scaleDown x.toGaussian).map ofMat := by
  have operand : (ofMat m).operand? = some (.matrix m) := rfl
  rw [operate_of_operands operand hs (by simp [ofMat, plainInteger?]) rfl (by simp)]
  show ((m.scaleDown x.toGaussian).map Value.matrix).map Datum.value = _
  cases m.scaleDown x.toGaussian <;> rfl

end Scalar

/-- The laws of sums and products of three matrices, with `s` as a factor and a divisor. -/
structure MatrixAlgebra (a b c : Mat) (s : Datum) : Prop where
  product : a.width = b.height → ∃ m : Mat, operate .matrixTimes (ofMat a) (ofMat b) = .ok (ofMat m) ∧
    m.shape = (a.height, b.width)
  product_refused : a.width ≠ b.height →
    operate .matrixTimes (ofMat a) (ofMat b) = refuse (.dimensionMismatch "multiplication" a.shape b.shape)
  sum : a.shape = b.shape → ∃ m : Mat, operate .plus (ofMat a) (ofMat b) = .ok (ofMat m) ∧ m.shape = a.shape
  sum_refused : a.shape ≠ b.shape →
    operate .plus (ofMat a) (ofMat b) = refuse (.dimensionMismatch "addition" a.shape b.shape)
  associative : a.width = b.height → b.width = c.height →
    SameMatrix (do operate .matrixTimes (← operate .matrixTimes (ofMat a) (ofMat b)) (ofMat c))
      (do operate .matrixTimes (ofMat a) (← operate .matrixTimes (ofMat b) (ofMat c)))
  distributive_left : b.shape = c.shape → a.width = b.height →
    SameMatrix (do operate .matrixTimes (ofMat a) (← operate .plus (ofMat b) (ofMat c)))
      (do operate .plus (← operate .matrixTimes (ofMat a) (ofMat b)) (← operate .matrixTimes (ofMat a) (ofMat c)))
  distributive_right : a.shape = b.shape → a.width = c.height →
    SameMatrix (do operate .matrixTimes (← operate .plus (ofMat a) (ofMat b)) (ofMat c))
      (do operate .plus (← operate .matrixTimes (ofMat a) (ofMat c)) (← operate .matrixTimes (ofMat b) (ofMat c)))
  identity_left : SameMatrix (do operate .matrixTimes (ofMat (← Mat.identity a.height)) (ofMat a)) (.ok (ofMat a))
  identity_right : SameMatrix (do operate .matrixTimes (ofMat a) (ofMat (← Mat.identity a.width))) (.ok (ofMat a))
  transpose : a.width = b.height → ∃ m : Mat, operate .matrixTimes (ofMat a) (ofMat b) = .ok (ofMat m) ∧
    SameMatrix (.ok (ofMat m.transpose)) (operate .matrixTimes (ofMat b.transpose) (ofMat a.transpose))
  multiple_left : a.width = b.height →
    SameMatrix (do operate .times s (← operate .matrixTimes (ofMat a) (ofMat b)))
      (do operate .matrixTimes (← operate .times s (ofMat a)) (ofMat b))
  multiple_right : a.width = b.height →
    SameMatrix (do operate .times s (← operate .matrixTimes (ofMat a) (ofMat b)))
      (do operate .matrixTimes (ofMat a) (← operate .times s (ofMat b)))
  quotient : Datum.same s (.integer 0) = .ok false →
    SameMatrix (do operate .divide (← operate .times (ofMat a) s) s) (.ok (ofMat a))

theorem operate_mul_eq_ok (h : a.mul b = .ok m) : operate .matrixTimes (ofMat a) (ofMat b) = .ok (ofMat m) := by
  rw [operate_mul, h]
  rfl

theorem operate_add_eq_ok (h : a.add b = .ok m) : operate .plus (ofMat a) (ofMat b) = .ok (ofMat m) := by
  rw [operate_add, h]
  rfl

/-- Sums and products of matrices of any shapes, and numbers as factors and divisors, obey the laws of matrices over a field;
operands that do not fit are refused, and no others. -/
theorem matrix_algebra (a b c : Mat) (hs : s.operand? = some (.number x)) : MatrixAlgebra a b c s := by
  constructor
  case product =>
    intro fit
    obtain ⟨m, product, shape⟩ := mul_of_fit fit
    exact ⟨m, operate_mul_eq_ok product, shape⟩
  case product_refused =>
    intro unfit
    rw [operate_mul, mul_of_unfit unfit]
    rfl
  case sum =>
    intro fit
    obtain ⟨m, sum, shape⟩ := add_of_fit fit
    exact ⟨m, operate_add_eq_ok sum, shape⟩
  case sum_refused =>
    intro unfit
    rw [operate_add, add_of_unfit unfit]
    rfl
  case associative =>
    intro fit fit'
    -- The product on the right is built from what fits, and the one on the left is then the same.
    obtain ⟨bc, inner, shape⟩ := mul_of_fit fit'
    obtain ⟨m, outer, -⟩ := mul_of_fit (fit.trans (congrArg Prod.fst shape).symm)
    obtain ⟨ab, inner', outer'⟩ := Mat.mul_of_mul inner outer
    exact sameMatrix_of_eq_ok (Outcome.bind_eq_ok.2 ⟨_, operate_mul_eq_ok inner', operate_mul_eq_ok outer'⟩)
      (Outcome.bind_eq_ok.2 ⟨_, operate_mul_eq_ok inner, operate_mul_eq_ok outer⟩)
  case distributive_left =>
    intro shapes fit
    obtain ⟨s, sum, -⟩ := add_of_fit shapes
    obtain ⟨ab, ac, m, left, right, sum', product⟩ := Mat.mul_add sum fit
    exact sameMatrix_of_eq_ok (Outcome.bind_eq_ok.2 ⟨_, operate_add_eq_ok sum, operate_mul_eq_ok product⟩)
      (Outcome.bind_eq_ok.2 ⟨_, operate_mul_eq_ok left, Outcome.bind_eq_ok.2
        ⟨_, operate_mul_eq_ok right, operate_add_eq_ok sum'⟩⟩)
  case distributive_right =>
    intro shapes fit
    obtain ⟨s, sum, -⟩ := add_of_fit shapes
    obtain ⟨ac, bc, m, left, right, sum', product⟩ := Mat.add_mul sum fit
    exact sameMatrix_of_eq_ok (Outcome.bind_eq_ok.2 ⟨_, operate_add_eq_ok sum, operate_mul_eq_ok product⟩)
      (Outcome.bind_eq_ok.2 ⟨_, operate_mul_eq_ok left, Outcome.bind_eq_ok.2
        ⟨_, operate_mul_eq_ok right, operate_add_eq_ok sum'⟩⟩)
  case identity_left =>
    obtain ⟨i, unit, product⟩ := a.identity_mul
    exact sameMatrix_of_eq_ok (Outcome.bind_eq_ok.2 ⟨i, unit, operate_mul_eq_ok product⟩) rfl
  case identity_right =>
    obtain ⟨i, unit, product⟩ := a.mul_identity
    exact sameMatrix_of_eq_ok (Outcome.bind_eq_ok.2 ⟨i, unit, operate_mul_eq_ok product⟩) rfl
  case transpose =>
    intro fit
    obtain ⟨m, product, -⟩ := mul_of_fit fit
    exact ⟨m, operate_mul_eq_ok product, sameMatrix_of_eq_ok rfl (operate_mul_eq_ok (Mat.transpose_mul product))⟩
  case multiple_left =>
    intro fit
    obtain ⟨m, product, -⟩ := mul_of_fit fit
    exact sameMatrix_of_eq_ok (Outcome.bind_eq_ok.2 ⟨_, operate_mul_eq_ok product, times_ofMat hs m⟩)
      (Outcome.bind_eq_ok.2 ⟨_, times_ofMat hs a, operate_mul_eq_ok (Mat.scale_mul _ product)⟩)
  case multiple_right =>
    intro fit
    obtain ⟨m, product, -⟩ := mul_of_fit fit
    exact sameMatrix_of_eq_ok (Outcome.bind_eq_ok.2 ⟨_, operate_mul_eq_ok product, times_ofMat hs m⟩)
      (Outcome.bind_eq_ok.2 ⟨_, times_ofMat hs b, operate_mul_eq_ok (Mat.mul_scale _ product)⟩)
  case quotient =>
    intro nonzero
    have nonzero : x.toGaussian ≠ 0 := by
      rintro zero
      have equal : (Value.number x).same (.rational (0 : Int)) = true := beq_iff_eq.2 zero
      rw [same_of_operands hs rfl, equal] at nonzero
      cases nonzero
    refine sameMatrix_of_eq_ok (Outcome.bind_eq_ok.2 ⟨_, ofMat_times hs a, ?_⟩) rfl
    rw [ofMat_divide hs, Mat.scaleDown_scale a nonzero]
    rfl

/-- A turn by a right angle, with the rows `[0, -1]` and `[1, 0]`. -/
def quarterTurn : Mat :=
  ⟨2, 2, Nat.two_pos, Nat.two_pos, .ofFn fun i j => if i = j then 0 else if i.val < j.val then -1 else 1⟩

theorem matrix_algebra_quarterTurn : (Datum.integer 2).operand? = some (Value.rational (2 : Int)) ∧
    quarterTurn.width = quarterTurn.height ∧ MatrixAlgebra quarterTurn quarterTurn quarterTurn (.integer 2) := by
  have scalar : (Datum.integer 2).operand? = some (Value.rational (2 : Int)) := rfl
  exact ⟨scalar, rfl, matrix_algebra quarterTurn quarterTurn quarterTurn scalar⟩

end Datum

end Reckoner
