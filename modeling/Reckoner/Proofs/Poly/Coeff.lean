import Reckoner.Poly.Basic
import Reckoner.Proofs.Mat.Inverse
import Reckoner.Proofs.Rational.Remainder
/-!
# The arithmetic of coefficients

Numbers and matrices multiply associatively wherever they can be multiplied (`Coeff.mul_of_mul`). A quotient, an opposite
and a zero are products with a number, so what holds of products holds of them.
-/

namespace Reckoner

open Gaussian

/-! ## Matrices -/

namespace Grid

variable {r c k n : Nat}

@[simp] theorem cell_map (f : Gaussian → Gaussian) (g : Grid r c) (i : Fin r) (j : Fin c) :
    (g.map f).cell i j = f (g.cell i j) := cell_ofFn _ i j

theorem mul_assoc (g : Grid r k) (h : Grid k n) (l : Grid n c) : (g.mul h).mul l = g.mul (h.mul l) := by
  apply toMatrix_injective
  simp only [toMatrix_mul, Matrix.mul_assoc]

theorem map_mul (z : Gaussian) (g : Grid r k) (h : Grid k c) : (g.map (· * z)).mul h = (g.mul h).map (· * z) := by
  refine ext_cell fun i j => ?_
  simp only [cell_mul, cell_map, Finset.sum_mul]
  exact Finset.sum_congr rfl fun l _ => by ring

theorem mul_map (z : Gaussian) (g : Grid r k) (h : Grid k c) : g.mul (h.map (· * z)) = (g.mul h).map (· * z) := by
  refine ext_cell fun i j => ?_
  simp only [cell_mul, cell_map, Finset.sum_mul]
  exact Finset.sum_congr rfl fun l _ => by ring

theorem map_map (y z : Gaussian) (g : Grid r c) : (g.map (· * y)).map (· * z) = g.map (· * (y * z)) :=
  ext_cell fun i j => by simp only [cell_map]; ring

end Grid

namespace Mat

variable {a b c m ab bc : Mat}

/-- A product is the product of the grids, and its sides fit. -/
theorem mul_eq_ok_iff : a.mul b = .ok m ↔ ∃ fit : b.height = a.width,
    m = ⟨a.height, b.width, a.height_pos, b.width_pos, a.grid.mul (b.grid.resize fit rfl)⟩ := by
  rw [mul]
  split
  next fit =>
    constructor
    · intro h
      exact ⟨fit, (Except.ok.inj h).symm⟩
    · rintro ⟨_, rfl⟩
      rfl
  next unfit =>
    constructor
    · intro h
      cases h
    · rintro ⟨fit, -⟩
      exact absurd fit unfit

/-- Where the right product of three is defined, so is the left one, and they are equal. -/
theorem mul_of_mul (h : b.mul c = .ok bc) (h' : a.mul bc = .ok m) : ∃ ab, a.mul b = .ok ab ∧ ab.mul c = .ok m := by
  obtain ⟨fit, rfl⟩ := mul_eq_ok_iff.1 h
  obtain ⟨fit', rfl⟩ := mul_eq_ok_iff.1 h'
  refine ⟨_, mul_eq_ok_iff.2 ⟨fit', rfl⟩, mul_eq_ok_iff.2 ⟨fit, ?_⟩⟩
  obtain ⟨r, k, _, _, g⟩ := a
  obtain ⟨k', n, _, _, h⟩ := b
  obtain ⟨n', c, _, _, l⟩ := c
  obtain rfl : k' = k := fit'
  obtain rfl : n' = n := fit
  simp only [Grid.resize_rfl, Grid.mul_assoc]

theorem scale_mul (z : Gaussian) (h : a.mul b = .ok m) : (a.scale z).mul b = .ok (m.scale z) := by
  obtain ⟨fit, rfl⟩ := mul_eq_ok_iff.1 h
  obtain ⟨r, k, _, _, g⟩ := a
  obtain ⟨k', n, _, _, h⟩ := b
  obtain rfl : k' = k := fit
  simp only [mul, scale, map, dif_pos, Grid.resize_rfl, Grid.map_mul]

theorem mul_scale (z : Gaussian) (h : a.mul b = .ok m) : a.mul (b.scale z) = .ok (m.scale z) := by
  obtain ⟨fit, rfl⟩ := mul_eq_ok_iff.1 h
  obtain ⟨r, k, _, _, g⟩ := a
  obtain ⟨k', n, _, _, h⟩ := b
  obtain rfl : k' = k := fit
  simp only [mul, scale, map, dif_pos, Grid.resize_rfl, Grid.mul_map]

/-- A product with a multiple is a multiple of a product. -/
theorem mul_of_mul_scale {z : Gaussian} (h : a.mul (b.scale z) = .ok m) : ∃ ab, a.mul b = .ok ab ∧ m = ab.scale z := by
  obtain ⟨fit, -⟩ := mul_eq_ok_iff.1 h
  obtain ⟨ab, product⟩ : ∃ ab, a.mul b = .ok ab := ⟨_, mul_eq_ok_iff.2 ⟨fit, rfl⟩⟩
  exact ⟨ab, product, Except.ok.inj (h.symm.trans (mul_scale z product))⟩

theorem scale_scale (y z : Gaussian) (m : Mat) : (m.scale y).scale z = m.scale (y * z) := by
  simp only [scale, map, Grid.map_map]

theorem scale_one (m : Mat) : m.scale 1 = m := by
  simp only [scale, map]
  congr 1
  exact Grid.ext_cell fun i j => by simp

theorem neg_eq_scale (m : Mat) : m.neg = m.scale (-1) := by
  simp only [neg, scale, map]
  congr 1
  exact Grid.ext_cell fun i j => by simp

theorem isZero_iff : m.isZero = true ↔ m.scale 0 = m := by
  obtain ⟨r, c, _, _, g⟩ := m
  have grid : g.map (· * 0) = Grid.zero r c := Grid.ext_cell fun i j => by simp [Grid.zero]
  simp only [isZero, Grid.isZero, scale, map, beq_iff_eq, grid, mk.injEq, heq_eq_eq, true_and]
  exact eq_comm

/-- The cells of a sum are the sums of the cells. -/
theorem add_eq_ok (h : a.add b = .ok m) : ∃ (height : b.height = a.height) (width : b.width = a.width),
    m = { a with grid := a.grid.zipWith (· + ·) (b.grid.resize height width) } := by
  rw [add, zipWith] at h
  split at h
  next fit => exact ⟨fit.1, fit.2, (Except.ok.inj h).symm⟩
  · cases h

theorem add_isZero (zero : b.isZero = true) (h : a.add b = .ok m) : m = a := by
  obtain ⟨height, width, rfl⟩ := add_eq_ok h
  obtain ⟨r, c, _, _, g⟩ := a
  obtain ⟨r', c', _, _, l⟩ := b
  obtain rfl : r' = r := height
  obtain rfl : c' = c := width
  obtain rfl : l = Grid.zero r' c' := beq_iff_eq.1 zero
  simp only [Grid.resize_rfl]
  congr 1
  exact Grid.ext_cell fun i j => by simp [Grid.zipWith, Grid.zero]

theorem isZero_add (zero : a.isZero = true) (h : a.add b = .ok m) : m = b := by
  obtain ⟨height, width, rfl⟩ := add_eq_ok h
  obtain ⟨r, c, _, _, g⟩ := a
  obtain ⟨r', c', _, _, l⟩ := b
  obtain rfl : r' = r := height
  obtain rfl : c' = c := width
  obtain rfl : g = Grid.zero r' c' := beq_iff_eq.1 zero
  simp only [Grid.resize_rfl]
  congr 1
  exact Grid.ext_cell fun i j => by simp [Grid.zipWith, Grid.zero]

/-- Taking away is adding the opposite. -/
theorem add_neg (h : a.sub b = .ok m) : a.add b.neg = .ok m := by
  rw [sub, zipWith] at h
  split at h
  next fit =>
    cases h
    obtain ⟨r, c, _, _, g⟩ := a
    obtain ⟨r', c', _, _, l⟩ := b
    obtain rfl : r' = r := fit.1
    obtain rfl : c' = c := fit.2
    refine (dif_pos ⟨rfl, rfl⟩).trans ?_
    simp only [neg, map, Grid.resize_rfl]
    congr 2
    exact Grid.ext_cell fun i j => by simp [Grid.zipWith, Grid.map, sub_eq_add_neg]
  · cases h

end Mat

/-! ## Coefficients -/

namespace Coeff

variable {a b c d q : Coeff}

theorem matrix_of_map {o : Outcome Mat} (h : o.map matrix = .ok a) : ∃ m, o = .ok m ∧ a = .matrix m := by
  obtain ⟨m, ok, rfl⟩ := Outcome.map_eq_ok.1 h
  exact ⟨m, ok, rfl⟩

/-- Where the right product of three is defined, so is the left one, and they are equal. -/
theorem mul_of_mul (h : b.mul c = .ok d) (h' : a.mul d = .ok q) : ∃ ab, a.mul b = .ok ab ∧ ab.mul c = .ok q := by
  cases b with
  | scalar y =>
    cases c with
    | scalar z =>
      cases h
      cases a with
      | scalar x =>
        cases h'
        exact ⟨_, rfl, by rw [← mul_assoc]; rfl⟩
      | matrix l =>
        cases h'
        exact ⟨_, rfl, by rw [← Mat.scale_scale]; rfl⟩
    | matrix n =>
      cases h
      cases a with
      | scalar x =>
        cases h'
        refine ⟨_, rfl, ?_⟩
        rw [Mat.scale_scale, mul_comm y]
        rfl
      | matrix l =>
        obtain ⟨m, product, rfl⟩ := matrix_of_map h'
        obtain ⟨ln, inner, rfl⟩ := Mat.mul_of_mul_scale product
        refine ⟨_, rfl, ?_⟩
        show ((l.scale y).mul n).map matrix = _
        rw [Mat.scale_mul y inner]
        rfl
  | matrix m =>
    cases c with
    | scalar z =>
      cases h
      cases a with
      | scalar x =>
        cases h'
        refine ⟨_, rfl, ?_⟩
        rw [Mat.scale_scale, mul_comm z, ← Mat.scale_scale]
        rfl
      | matrix l =>
        obtain ⟨lm, product, rfl⟩ := matrix_of_map h'
        obtain ⟨ln, inner, rfl⟩ := Mat.mul_of_mul_scale product
        exact ⟨.matrix ln, by rw [mul, inner]; rfl, rfl⟩
    | matrix n =>
      obtain ⟨mn, product, rfl⟩ := matrix_of_map h
      cases a with
      | scalar x =>
        cases h'
        refine ⟨_, rfl, ?_⟩
        show ((m.scale x).mul n).map matrix = _
        rw [Mat.scale_mul x product]
        rfl
      | matrix l =>
        obtain ⟨lmn, whole, rfl⟩ := matrix_of_map h'
        obtain ⟨lm, first, second⟩ := Mat.mul_of_mul product whole
        exact ⟨.matrix lm, by rw [mul, first]; rfl, by rw [mul, second]; rfl⟩

/-! ### Products with numbers -/

theorem scalar_mul (z : Gaussian) (c : Coeff) : (scalar z).mul c = c.mul (scalar z) := by
  cases c with
  | scalar w => rw [mul, mul, mul_comm]
  | matrix m => rfl

theorem mul_one (c : Coeff) : c.mul (ofRat 1) = .ok c := by
  cases c with
  | scalar z =>
    have same : z * 1 = z := by ring
    exact congrArg (Except.ok ∘ scalar) same
  | matrix m => exact congrArg (Except.ok ∘ matrix) m.scale_one

/-- A quotient is a product with the inverse of a number. -/
theorem divide_eq_ok_iff : a.divide b = .ok c ↔ ∃ z, b = .scalar z ∧ z ≠ 0 ∧ a.mul (.scalar z⁻¹) = .ok c := by
  cases b with
  | matrix m => cases a <;> exact ⟨nofun, by rintro ⟨_, ⟨⟩, -⟩⟩
  | scalar z =>
    by_cases zero : z = 0
    · subst zero
      cases a <;> exact ⟨nofun, by rintro ⟨_, ⟨⟩, nonzero, -⟩; exact absurd rfl nonzero⟩
    have quotient : a.divide (.scalar z) = a.mul (.scalar z⁻¹) := by
      cases a with
      | scalar y => rw [divide, Gaussian.divide, if_neg zero, div_eq_mul_inv]; rfl
      | matrix m =>
        rw [divide, Mat.scaleDown, if_neg zero]
        simp only [div_eq_mul_inv]
        rfl
    rw [quotient]
    exact ⟨fun h => ⟨z, rfl, zero, h⟩, by rintro ⟨_, ⟨⟩, -, h⟩; exact h⟩

/-- What is multiplied by a quotient may be multiplied first. -/
theorem divide_of_mul (h : b.divide c = .ok d) (h' : a.mul d = .ok q) : ∃ ab, a.mul b = .ok ab ∧ ab.divide c = .ok q := by
  obtain ⟨z, rfl, nonzero, product⟩ := divide_eq_ok_iff.1 h
  obtain ⟨ab, first, second⟩ := mul_of_mul product h'
  exact ⟨ab, first, divide_eq_ok_iff.2 ⟨z, rfl, nonzero, second⟩⟩

/-! ### Opposites -/

theorem neg_eq (c : Coeff) : (scalar (-1)).mul c = .ok c.neg := by
  cases c with
  | scalar z => rw [mul, neg_one_mul]; rfl
  | matrix m => rw [mul, neg, Mat.neg_eq_scale]

theorem neg_mul (h : a.mul b = .ok c) : a.neg.mul b = .ok c.neg := by
  obtain ⟨n, opposite, product⟩ := mul_of_mul h c.neg_eq
  rw [neg_eq] at opposite
  cases opposite
  exact product

theorem neg_divide (h : a.divide b = .ok c) : a.neg.divide b = .ok c.neg := by
  obtain ⟨z, rfl, nonzero, product⟩ := divide_eq_ok_iff.1 h
  exact divide_eq_ok_iff.2 ⟨z, rfl, nonzero, neg_mul product⟩

theorem neg_neg (c : Coeff) : c.neg.neg = c := by
  cases c with
  | scalar z => simp [neg]
  | matrix m =>
    rw [neg, neg, Mat.neg_eq_scale, Mat.neg_eq_scale, Mat.scale_scale, neg_one_mul, InvolutiveNeg.neg_neg, Mat.scale_one]

theorem neg_modulo {m : Modulus} (h : a.modulo m = .ok c) : a.neg.modulo m = .ok c.neg := by
  cases a with
  | matrix n => cases h
  | scalar z =>
    simp only [modulo] at h
    split at h
    next real =>
      cases m with
      | rational q =>
        obtain ⟨r, remainder, rfl⟩ := Outcome.map_eq_ok.1 h
        have opposite : (-z).im = 0 := by rw [neg_im, real, neg_zero]
        simp only [neg, modulo, if_pos opposite, neg_re, Rational.modulo_neg remainder]
        exact congrArg (Except.ok ∘ scalar) (Gaussian.ext rfl neg_zero.symm)
      | complex | matrix => cases h
    · cases h

/-! ### Zero -/

theorem isZero_iff : c.isZero = true ↔ c.mul (scalar 0) = .ok c := by
  cases c with
  | scalar z =>
    simp only [isZero, beq_iff_eq, mul, mul_zero, Except.ok.injEq, scalar.injEq]
    exact eq_comm
  | matrix m => simp [isZero, mul, Mat.isZero_iff]

theorem mul_isZero (zero : b.isZero = true) (h : a.mul b = .ok c) : c.isZero = true := by
  rw [isZero_iff] at zero ⊢
  obtain ⟨ab, first, second⟩ := mul_of_mul zero h
  rw [h] at first
  cases first
  exact second

theorem isZero_mul (zero : a.isZero = true) (h : a.mul b = .ok c) : c.isZero = true := by
  obtain ⟨d, product⟩ : ∃ d, c.mul (scalar 0) = .ok d := by cases c <;> exact ⟨_, rfl⟩
  rw [isZero_iff, ← scalar_mul] at zero
  obtain ⟨ab, first, second⟩ := mul_of_mul h ((scalar_mul 0 c).trans product)
  cases zero.symm.trans first
  cases h.symm.trans second
  exact isZero_iff.2 product

theorem isZero_neg (c : Coeff) : c.neg.isZero = c.isZero := by
  have keeps : ∀ d : Coeff, d.isZero = true → d.neg.isZero = true := fun d zero => mul_isZero zero d.neg_eq
  rw [Bool.eq_iff_iff]
  exact ⟨fun zero => c.neg_neg ▸ keeps c.neg zero, keeps c⟩

theorem isZero_divide (zero : a.isZero = true) (h : a.divide b = .ok c) : c.isZero = true := by
  obtain ⟨z, rfl, -, product⟩ := divide_eq_ok_iff.1 h
  exact isZero_mul zero product

/-! ### Sums with zero -/

theorem add_isZero (zero : b.isZero = true) (h : a.add b = .ok c) : c = a := by
  cases a with
  | scalar y =>
    cases b with
    | scalar z =>
      obtain rfl : z = 0 := beq_iff_eq.1 zero
      cases h
      rw [add_zero]
    | matrix n => cases h
  | matrix m =>
    cases b with
    | scalar z => cases h
    | matrix n =>
      obtain ⟨sum, added, rfl⟩ := matrix_of_map h
      rw [Mat.add_isZero zero added]

theorem isZero_add (zero : a.isZero = true) (h : a.add b = .ok c) : c = b := by
  cases a with
  | scalar y =>
    cases b with
    | scalar z =>
      obtain rfl : y = 0 := beq_iff_eq.1 zero
      cases h
      rw [zero_add]
    | matrix n => cases h
  | matrix m =>
    cases b with
    | scalar z => cases h
    | matrix n =>
      obtain ⟨sum, added, rfl⟩ := matrix_of_map h
      rw [Mat.isZero_add zero added]

end Coeff

end Reckoner
