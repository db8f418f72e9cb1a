import Mathlib.Algebra.Field.Basic
import Mathlib.Algebra.Order.Ring.Rat
import Mathlib.Tactic.Ring
import Reckoner.Gaussian.Basic
/-!
# The field of Gaussian rationals

The operations on complex numbers with rational parts are those of a field. A quotient is computed through the
conjugate of the divisor, whose square is zero only for zero.
-/

namespace Reckoner.Gaussian

/-! ## Parts -/

@[simp] theorem zero_re : (0 : Gaussian).re = 0 := rfl
@[simp] theorem zero_im : (0 : Gaussian).im = 0 := rfl
@[simp] theorem one_re : (1 : Gaussian).re = 1 := rfl
@[simp] theorem one_im : (1 : Gaussian).im = 0 := rfl

section Parts

variable (z w : Gaussian)

@[simp] theorem add_re : (z + w).re = z.re + w.re := rfl
@[simp] theorem add_im : (z + w).im = z.im + w.im := rfl
@[simp] theorem neg_re : (-z).re = -z.re := rfl
@[simp] theorem neg_im : (-z).im = -z.im := rfl
@[simp] theorem sub_re : (z - w).re = z.re - w.re := rfl
@[simp] theorem sub_im : (z - w).im = z.im - w.im := rfl
@[simp] theorem mul_re : (z * w).re = z.re * w.re - z.im * w.im := rfl
@[simp] theorem mul_im : (z * w).im = z.re * w.im + z.im * w.re := rfl
@[simp] theorem inv_re : z⁻¹.re = z.re / z.normSquared := rfl
@[simp] theorem inv_im : z⁻¹.im = -z.im / z.normSquared := rfl

end Parts

@[simp] theorem ofRat_re (q : Rat) : (ofRat q).re = q := rfl
@[simp] theorem ofRat_im (q : Rat) : (ofRat q).im = 0 := rfl

/-! ## Division -/

theorem normSquared_eq_zero {z : Gaussian} : z.normSquared = 0 ↔ z = 0 := by
  rw [normSquared, mul_self_add_mul_self_eq_zero]
  exact ⟨fun ⟨re, im⟩ => Gaussian.ext re im, by rintro rfl; exact ⟨rfl, rfl⟩⟩

theorem mul_inv_self {z : Gaussian} (h : z ≠ 0) : z * z⁻¹ = 1 := by
  have norm : z.re * z.re + z.im * z.im ≠ 0 := fun zero => h (normSquared_eq_zero.1 zero)
  ext
  · calc z.re * (z.re / z.normSquared) - z.im * (-z.im / z.normSquared)
        = (z.re * z.re + z.im * z.im) / z.normSquared := by ring
      _ = 1 := div_self norm
  · calc z.re * (-z.im / z.normSquared) + z.im * (z.re / z.normSquared) = 0 := by ring

/-- A quotient by way of the conjugate is the product with the inverse. -/
theorem div_eq_mul_inv' (z w : Gaussian) : z / w = z * w⁻¹ := by
  show (⟨(z.re * w.re - z.im * -w.im) / _, (z.re * -w.im + z.im * w.re) / _⟩ : Gaussian) = _
  ext
  · simp only [mul_re, inv_re, inv_im]
    ring
  · simp only [mul_im, inv_re, inv_im]
    ring

instance : Field Gaussian where
  add_assoc _ _ _ := Gaussian.ext (add_assoc _ _ _) (add_assoc _ _ _)
  zero_add _ := Gaussian.ext (zero_add _) (zero_add _)
  add_zero _ := Gaussian.ext (add_zero _) (add_zero _)
  add_comm _ _ := Gaussian.ext (add_comm _ _) (add_comm _ _)
  neg_add_cancel _ := Gaussian.ext (neg_add_cancel _) (neg_add_cancel _)
  sub_eq_add_neg _ _ := Gaussian.ext (sub_eq_add_neg _ _) (sub_eq_add_neg _ _)
  mul_assoc _ _ _ := by ext <;> simp <;> ring
  one_mul _ := by ext <;> simp
  mul_one _ := by ext <;> simp
  mul_comm _ _ := by ext <;> simp <;> ring
  left_distrib _ _ _ := by ext <;> simp <;> ring
  right_distrib _ _ _ := by ext <;> simp <;> ring
  zero_mul _ := by ext <;> simp
  mul_zero _ := by ext <;> simp
  exists_pair_ne := ⟨0, 1, fun h => zero_ne_one (congrArg re h)⟩
  div_eq_mul_inv := div_eq_mul_inv'
  mul_inv_cancel _ := mul_inv_self
  inv_zero := by ext <;> simp
  nsmul := nsmulRec
  zsmul := zsmulRec
  nnqsmul := _
  qsmul := _

/-! ## Rational numbers among them -/

theorem ofRat_eq_zero {q : Rat} : ofRat q = 0 ↔ q = 0 :=
  ⟨congrArg re, by rintro rfl; rfl⟩

theorem ofRat_neg (q : Rat) : ofRat (-q) = -ofRat q := by ext <;> simp

theorem ofRat_add (p q : Rat) : ofRat (p + q) = ofRat p + ofRat q := by ext <;> simp

theorem ofRat_sub (p q : Rat) : ofRat (p - q) = ofRat p - ofRat q := by ext <;> simp

theorem ofRat_mul (p q : Rat) : ofRat (p * q) = ofRat p * ofRat q := by ext <;> simp

theorem ofRat_div (p : Rat) {q : Rat} (h : q ≠ 0) : ofRat (p / q) = ofRat p / ofRat q := by
  rw [eq_div_iff (mt ofRat_eq_zero.1 h), ← ofRat_mul, div_mul_cancel₀ p h]

end Reckoner.Gaussian
