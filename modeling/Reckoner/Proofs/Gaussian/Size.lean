import Mathlib.Algebra.Group.Even
import Mathlib.Tactic.NormNum
import Reckoner.Datum.Places
import Reckoner.Proofs.Gaussian.Field
import Reckoner.Proofs.Rational.Root
/-!
# Exact sizes

A size is a square root, so it is exact where the squared size is a rational square.

Main statement: the root of a rational square is its rational root, whatever number of decimals is asked for and however
large the number is; hence the size of a complex number whose squared size is a rational square is exact, and such sizes
multiply.
-/

namespace Reckoner.Gaussian

variable {z w : Gaussian}

theorem normSquared_mul (z w : Gaussian) : (z * w).normSquared = z.normSquared * w.normSquared := by
  simp only [normSquared, mul_re, mul_im]
  ring

/-- A size of which the square is known. -/
theorem abs_of_square {root : Rat} (square : root * root = z.normSquared) (places : Nat) :
    z.abs places = .ok (Rational.abs root) := by
  rw [Gaussian.abs, ← square, Rational.sqrt_mul_self]

theorem exists_abs (square : IsSquare z.normSquared) (places : Nat) :
    ∃ size, z.abs places = .ok size ∧ size * size = z.normSquared :=
  square.elim fun _ root => Rational.sqrt_square root places

/-- The size of a product is the product of the sizes. -/
theorem abs_mul {r s : Rat} {places : Nat} (hz : z.abs places = .ok r) (hw : w.abs places = .ok s)
    (first : r * r = z.normSquared) (second : s * s = w.normSquared) : (z * w).abs places = .ok (r * s) := by
  have nonneg : 0 ≤ r * s := mul_nonneg (Rational.sqrt_nonneg hz) (Rational.sqrt_nonneg hw)
  have square : r * s * (r * s) = (z * w).normSquared := by rw [mul_mul_mul_comm, first, second, normSquared_mul]
  rw [abs_of_square square, Rational.abs_eq, abs_of_nonneg nonneg]

/-- Roots of rational squares are exact for every number of decimals, also one without meaning; the sizes of complex
numbers that are such roots are exact, and they multiply. -/
theorem exact_sizes (places : Nat) :
    (∀ x q : Rat, q * q = x → Rational.sqrt places x = .ok (Rational.abs q) ∧
      ∀ decimals : Datum, Datum.root places decimals x = .ok (Rational.abs q)) ∧
      (∀ z : Gaussian, IsSquare z.normSquared →
        ∃ size, z.abs places = .ok size ∧ size * size = z.normSquared) ∧
        ∀ z w : Gaussian, IsSquare z.normSquared → IsSquare w.normSquared →
          ∃ r s, z.abs places = .ok r ∧ w.abs places = .ok s ∧ (z * w).abs places = .ok (r * s) := by
  refine ⟨?_, fun z square => exists_abs square places, fun z w hz hw => ?_⟩
  · rintro _ q rfl
    exact ⟨Rational.sqrt_mul_self q places, fun _ => Rational.sqrt_mul_self q _⟩
  · obtain ⟨r, size, first⟩ := exists_abs hz places
    obtain ⟨s, other, second⟩ := exists_abs hw places
    exact ⟨r, s, size, other, abs_mul size other first second⟩

/-- The squares are too large for a double. -/
theorem exact_sizes_large : (-10 ^ 200 / 3) * (-10 ^ 200 / 3) = ((10 ^ 200) ^ 2 / 9 : Rat) ∧
    IsSquare (⟨3 * 10 ^ 200, 4 * 10 ^ 200⟩ : Gaussian).normSquared ∧ IsSquare (⟨5, -12⟩ : Gaussian).normSquared ∧
      Rational.sqrt 10 ((10 ^ 200) ^ 2 / 9) = .ok (Rational.abs (-10 ^ 200 / 3)) ∧
        ∃ r s, (⟨3 * 10 ^ 200, 4 * 10 ^ 200⟩ : Gaussian).abs 10 = .ok r ∧ (⟨5, -12⟩ : Gaussian).abs 10 = .ok s ∧
          ((⟨3 * 10 ^ 200, 4 * 10 ^ 200⟩ : Gaussian) * ⟨5, -12⟩).abs 10 = .ok (r * s) := by
  have square : (-10 ^ 200 / 3) * (-10 ^ 200 / 3) = ((10 ^ 200) ^ 2 / 9 : Rat) := by norm_num
  have first : IsSquare (⟨3 * 10 ^ 200, 4 * 10 ^ 200⟩ : Gaussian).normSquared :=
    ⟨5 * 10 ^ 200, by norm_num [normSquared]⟩
  have second : IsSquare (⟨5, -12⟩ : Gaussian).normSquared := ⟨13, by norm_num [normSquared]⟩
  exact ⟨square, first, second, ((exact_sizes 10).1 _ _ square).1, (exact_sizes 10).2.2 _ _ first second⟩

end Reckoner.Gaussian
