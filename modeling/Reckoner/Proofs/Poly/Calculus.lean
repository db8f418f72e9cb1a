import Mathlib.Algebra.Polynomial.Derivative
import Reckoner.Proofs.Poly.Homomorphism
/-!
# Derivatives and antiderivatives

The derivative of a polynomial with numbers as coefficients stands for the derivative in Q(i)[X], and the antiderivative for
the element with that derivative and no constant. The laws of differentiation are those of Q(i)[X] (`calculus_of_denotes`).
-/

namespace Reckoner

open Polynomial

/-! ## Natural numbers among the coefficients -/

namespace Gaussian

theorem ofRat_natCast (n : Nat) : ofRat n = n := map_natCast ofRatHom n

instance : CharZero Gaussian where
  cast_injective m n same := by
    simp only [← ofRat_natCast] at same
    exact Nat.cast_injective (congrArg re same)

/-- A fraction with numerator one undoes the factor that is its denominator. -/
theorem mul_ofRat_one_div (z : Gaussian) {n : Nat} (nonzero : n ≠ 0) : z * ofRat (1 / (n : Rat)) * n = z := by
  rw [← ofRat_natCast, mul_assoc, ← ofRat_mul, one_div_mul_cancel (Nat.cast_ne_zero.2 nonzero)]
  exact mul_one z

end Gaussian

/-! ## Terms -/

namespace Terms.Expands

variable {ts : Terms} {f : Gaussian[X]}

/-- The term of power zero goes, and every other one loses a power to its coefficient. -/
theorem derivative (h : Expands ts f) :
    Expands (ts.filterMap fun t => if t.1 = 0 then none else some (t.1 - 1, t.2.scale t.1)) (Polynomial.derivative f) := by
  induction h with
  | nil =>
    rw [derivative_zero]
    exact nil
  | @cons n z rest f below rest_f ih =>
    rw [derivative_add, derivative_monomial]
    by_cases constant : n = 0
    · subst constant
      rw [Nat.cast_zero, mul_zero, monomial_zero_right, zero_add]
      exact ih
    · rw [← Gaussian.ofRat_natCast]
      simp only [List.filterMap_cons, if_neg constant]
      -- The powers that are left are one less each, and so still descend.
      refine cons (fun t mem => ?_) ih
      obtain ⟨s, later, eq⟩ := List.mem_filterMap.1 mem
      have lower := below s later
      split at eq
      · cases eq
      · cases eq
        show s.1 - 1 < n - 1
        omega

/-- Every term gains a power, by which its coefficient is divided: what comes of it has no constant, and `f` as derivative. -/
theorem integral (h : Expands ts f) :
    ∃ F, Expands (ts.map fun t => (t.1 + 1, t.2.scale (1 / ((t.1 + 1 : Nat) : Rat)))) F ∧ Polynomial.derivative F = f ∧
      F.coeff 0 = 0 := by
  induction h with
  | nil => exact ⟨0, nil, derivative_zero, coeff_zero 0⟩
  | @cons n z rest f below _ ih =>
    obtain ⟨F, expands, slope, start⟩ := ih
    refine ⟨monomial (n + 1) (z * .ofRat (1 / ((n + 1 : Nat) : Rat))) + F, ?_, ?_, ?_⟩
    · exact cons (List.forall_mem_map.2 fun t mem => Nat.succ_lt_succ (below t mem)) expands
    · rw [derivative_add, derivative_monomial, slope, Gaussian.mul_ofRat_one_div z n.succ_ne_zero, Nat.add_sub_cancel]
    · rw [coeff_add, coeff_monomial, if_neg n.succ_ne_zero, start, add_zero]

end Terms.Expands

/-! ## Polynomials -/

/-- The outcome is a polynomial, and its derivative is equal to the value of the other outcome. -/
def Outcome.HasDerivative (o slope : Outcome Value) : Prop :=
  ∃ r, o = .ok (.polynomial r) ∧ Agree (.ok (.polynomial r.derivative)) slope

namespace Poly

variable {p q : Poly} {x : Text} {f g : Gaussian[X]}

theorem Denotes.isScalar (h : p.Denotes x f) : (Value.polynomial p).IsScalar x :=
  ⟨h.1, fun t mem => ⟨f.coeff t.1, ((h.2 t.1 t.2).1 mem).1⟩⟩

theorem Denotes.derivative (h : p.Denotes x f) : p.derivative.Denotes x (Polynomial.derivative f) := by
  rw [Poly.derivative, h.1]
  exact ofTerms_denotes h.expands.derivative

theorem Denotes.integral (h : p.Denotes x f) :
    ∃ F, p.integral.Denotes x F ∧ Polynomial.derivative F = f ∧ F.coeff 0 = 0 := by
  obtain ⟨F, expands, slope, start⟩ := h.expands.integral
  refine ⟨F, ?_, slope, start⟩
  rw [Poly.integral, h.1]
  exact ofTerms_denotes expands

/-- What has no constant is determined by its derivative. -/
theorem eq_sub_of_derivative {F : Gaussian[X]} (slope : Polynomial.derivative F = Polynomial.derivative f)
    (start : F.coeff 0 = 0) : F = f - C (f.coeff 0) := by
  -- Over a field of characteristic zero only a constant has no slope.
  have flat : Polynomial.derivative (F - f) = 0 := by rw [derivative_sub, slope, sub_self]
  have constant := eq_C_of_natDegree_eq_zero (derivative_eq_zero.1 flat)
  rw [coeff_sub, start, zero_sub, C_neg] at constant
  rw [sub_eq_add_neg, ← constant, add_sub_cancel]

/-- The laws of differentiation for two polynomials and a number. -/
structure Calculus (p q : Poly) (c : Number) : Prop where
  product : Outcome.HasDerivative (Value.mul (.polynomial p) (.polynomial q)) (do
    Value.add (← Value.mul (.polynomial p.derivative) (.polynomial q))
      (← Value.mul (.polynomial p) (.polynomial q.derivative)))
  sum : Outcome.HasDerivative (Value.add (.polynomial p) (.polynomial q))
    (Value.add (.polynomial p.derivative) (.polynomial q.derivative))
  difference : Outcome.HasDerivative (Value.sub (.polynomial p) (.polynomial q))
    (Value.sub (.polynomial p.derivative) (.polynomial q.derivative))
  multiple : Outcome.HasDerivative (Value.mul (.number c) (.polynomial p)) (Value.mul (.number c) (.polynomial p.derivative))
  multiple_right : Outcome.HasDerivative (Value.mul (.polynomial p) (.number c))
    (Value.mul (.polynomial p.derivative) (.number c))
  antiderivative : Value.same (.polynomial p.integral.derivative) (.polynomial p) = true
  constant_lost : Outcome.Agree (.ok (.polynomial p.derivative.integral))
    (Value.sub (.polynomial p) (p.coefficient 0).toValue)

end Poly

namespace Outcome.Denotes

variable {o slope : Outcome Value} {x : Text} {f : Gaussian[X]}

/-- A polynomial that stands for an element has the derivative of the element as derivative. -/
theorem hasDerivative (h : Denotes o x f) (polynomial : ∃ s, o = Except.map Value.polynomial s)
    (hs : Denotes slope x (Polynomial.derivative f)) : HasDerivative o slope := by
  obtain ⟨v, run, hv⟩ := h
  obtain ⟨s, rfl⟩ := polynomial
  obtain ⟨r, rfl, rfl⟩ := Outcome.map_eq_ok.1 run
  refine ⟨r, rfl, ?_⟩
  exact agree ⟨_, rfl, Poly.Denotes.derivative hv⟩ hs

end Outcome.Denotes

namespace Poly

variable {p q : Poly} {x : Text} {f g : Gaussian[X]}

/-- Polynomials that stand for elements of Q(i)[X] have the laws of differentiation there. -/
theorem calculus_of_denotes (hp : p.Denotes x f) (hq : q.Denotes x g) (c : Number) : Calculus p q c := by
  have hp : Value.Denotes (.polynomial p) x f := hp
  have hq : Value.Denotes (.polynomial q) x g := hq
  have hp' : Value.Denotes (.polynomial p.derivative) x (Polynomial.derivative f) := hp.derivative
  have hq' : Value.Denotes (.polynomial q.derivative) x (Polynomial.derivative g) := Denotes.derivative hq
  have number : Value.Denotes (.number c) x (C c.toGaussian) := rfl
  constructor
  case product =>
    refine Outcome.Denotes.hasDerivative (hp.mul hq) ⟨_, rfl⟩ ?_
    rw [derivative_mul]
    exact Outcome.Denotes.bind (hp'.mul hq) fun _ left => Outcome.Denotes.bind (hp.mul hq') fun _ right => left.add right
  case sum =>
    refine Outcome.Denotes.hasDerivative (hp.add hq) ⟨_, rfl⟩ ?_
    rw [derivative_add]
    exact hp'.add hq'
  case difference =>
    refine Outcome.Denotes.hasDerivative (hp.sub hq) ⟨_, rfl⟩ ?_
    rw [derivative_sub]
    exact hp'.sub hq'
  case multiple =>
    refine Outcome.Denotes.hasDerivative (number.mul hp) ⟨_, rfl⟩ ?_
    rw [derivative_C_mul]
    exact number.mul hp'
  case multiple_right =>
    refine Outcome.Denotes.hasDerivative (hp.mul number) ⟨_, rfl⟩ ?_
    rw [derivative_mul, derivative_C, mul_zero, add_zero]
    exact hp'.mul number
  case antiderivative =>
    obtain ⟨F, denotes, rfl, -⟩ := Denotes.integral hp
    have slope : Value.Denotes (.polynomial p.integral.derivative) x (Polynomial.derivative F) := denotes.derivative
    exact (slope.same_iff hp).2 rfl
  case constant_lost =>
    obtain ⟨F, denotes, slope, start⟩ := Denotes.integral hp'
    have constant : (p.coefficient 0).toValue.Denotes x (C (f.coeff 0)) := by
      rw [Denotes.coefficient_eq hp 0]
      exact Value.Denotes.number_ofGaussian _
    refine Outcome.Denotes.agree ⟨_, rfl, denotes⟩ ?_
    rw [eq_sub_of_derivative slope start]
    exact hp.sub constant

end Poly

end Reckoner
