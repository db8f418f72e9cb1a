import Mathlib.Algebra.GroupWithZero.Units.Basic
import Reckoner.Proofs.Poly.Power
import Reckoner.Proofs.Value.Exactness
/-!
# Powers and simplest kinds

Integer powers of values are those of Q(i)[X], negative ones of constants that are not zero only. Which value is taken as an
exponent depends on the element that it stands for and not on its kind.
-/

namespace Reckoner

open Polynomial

/-! ## Numbers -/

theorem Power.onto_eq_mul_pow {M : Type} [Monoid M] (a b : M) (n : Nat) : onto (· * ·) a b n = a * b ^ n := by
  rw [onto_eq_repeat mul_assoc]
  induction n with
  | zero => simp [Nat.repeat]
  | succ n ih => rw [Nat.repeat, ih, pow_succ, mul_assoc]

/-- Squaring the inverse gives the powers with negative exponents. -/
theorem Power.onto_inv {M : Type} [DivisionMonoid M] (b : M) {n : Int} (h : n ≤ 0) :
    onto (· * ·) 1 b⁻¹ (-n).toNat = b ^ n := by
  have opposite : ((-n).toNat : Int) = -n := Int.toNat_of_nonneg (by omega)
  rw [onto_eq_mul_pow, one_mul, ← zpow_natCast, opposite, inv_zpow', neg_neg]

namespace Rational

variable {q : Rat} {n : Int}

theorem power_of_nonneg (h : 0 ≤ n) : power q n = .ok (q ^ n.toNat) := by
  rw [power, if_pos h, Power.onto_eq_mul_pow, one_mul]

theorem power_of_ne_zero (h : q ≠ 0) : power q n = .ok (q ^ n) := by
  by_cases sign : 0 ≤ n
  · rw [power_of_nonneg sign, ← zpow_natCast, Int.toNat_of_nonneg sign]
  · rw [power, if_neg sign, if_neg h, Power.onto_inv q (not_le.1 sign).le]

end Rational

namespace Gaussian

variable {z : Gaussian} {n : Int}

theorem power_of_nonneg (h : 0 ≤ n) : z.power n = .ok (z ^ n.toNat) := by
  rw [power, if_pos h, powerOnto_eq, Power.onto_eq_mul_pow, one_mul]

theorem power_of_ne_zero (h : z ≠ 0) : z.power n = .ok (z ^ n) := by
  by_cases sign : 0 ≤ n
  · rw [power_of_nonneg sign, ← zpow_natCast, Int.toNat_of_nonneg sign]
  · rw [power, if_neg sign, if_neg h, powerOnto_eq, Power.onto_inv z (not_le.1 sign).le]

/-- Rational numbers among complex ones, with their arithmetic. -/
def ofRatHom : ℚ →+* Gaussian where
  toFun := ofRat
  map_zero' := rfl
  map_one' := rfl
  map_add' := ofRat_add
  map_mul' := ofRat_mul

theorem ofRat_pow (q : Rat) (n : Nat) : ofRat (q ^ n) = ofRat q ^ n := map_pow ofRatHom q n

theorem ofRat_zpow (q : Rat) (n : Int) : ofRat (q ^ n) = ofRat q ^ n := map_zpow₀ ofRatHom q n

end Gaussian

namespace Number

variable {a : Number} {n : Int}

theorem power_of_nonneg (h : 0 ≤ n) : ∃ b, a.power n = .ok b ∧ b.toGaussian = a.toGaussian ^ n.toNat := by
  cases a with
  | rational q => exact ⟨.rational _, by rw [power, Rational.power_of_nonneg h]; rfl, Gaussian.ofRat_pow q _⟩
  | complex z => exact ⟨.complex _, by rw [power, Gaussian.power_of_nonneg h]; rfl, rfl⟩

theorem power_of_ne_zero (h : a.toGaussian ≠ 0) : ∃ b, a.power n = .ok b ∧ b.toGaussian = a.toGaussian ^ n := by
  cases a with
  | rational q =>
    have nonzero : q ≠ 0 := fun zero => h (Gaussian.ofRat_eq_zero.2 zero)
    exact ⟨.rational _, by rw [power, Rational.power_of_ne_zero nonzero]; rfl, Gaussian.ofRat_zpow q n⟩
  | complex z => exact ⟨.complex _, by rw [power, Gaussian.power_of_ne_zero (z := z) h]; rfl, rfl⟩

/-- Zero has no negative powers. -/
theorem power_ne_ok {b : Number} (zero : a.toGaussian = 0) (negative : n < 0) : a.power n ≠ .ok b := by
  have sign : ¬0 ≤ n := not_le.2 negative
  cases a with
  | rational q =>
    obtain rfl := Gaussian.ofRat_eq_zero.1 zero
    rw [power, Rational.power, if_neg sign, if_pos rfl]
    exact nofun
  | complex z =>
    obtain rfl : z = 0 := zero
    rw [power, Gaussian.power, if_neg sign, if_pos rfl]
    exact nofun

end Number

/-! ## Values -/

namespace Value.Denotes

variable {v w : Value} {x : Text} {f g : Gaussian[X]}

/-- A value stands for one element at most. -/
theorem unique (hf : v.Denotes x f) (hg : v.Denotes x g) : f = g := by
  cases v with
  | matrix m => cases hf
  | number a => exact Eq.trans hf (Eq.symm hg)
  | polynomial p => exact Poly.Denotes.unique hf hg

/-! ### Simplest kinds -/

theorem simplify_constant {c : Gaussian} (h : v.Denotes x (C c)) : v.simplify = .number (.ofGaussian c) := by
  cases v with
  | matrix m => cases h
  | number a =>
    obtain rfl : c = a.toGaussian := C_injective h
    rfl
  | polynomial p =>
    obtain ⟨constant, value⟩ := Poly.Denotes.constant h
    rw [simplify, if_pos constant, value]
    rfl

theorem simplify_polynomial (h : v.Denotes x f) (degree : 0 < f.natDegree) :
    ∃ p, v = .polynomial p ∧ v.simplify = .polynomial p := by
  cases v with
  | matrix m => cases h
  | number a =>
    cases h
    exact absurd (natDegree_C _) degree.ne'
  | polynomial p =>
    have varies : ¬p.isConstant = true := fun constant => degree.ne' ((Poly.Denotes.isConstant_iff h).1 constant)
    exact ⟨p, rfl, if_neg varies⟩

theorem number_ofGaussian (c : Gaussian) : (number (.ofGaussian c)).Denotes x (C c) := by
  rw [Denotes, Number.toGaussian_ofGaussian]

/-- A value and its simplest kind stand for the same element. -/
theorem simplify (h : v.Denotes x f) : v.simplify.Denotes x f := by
  rcases Nat.eq_zero_or_pos f.natDegree with constant | degree
  · obtain ⟨c, rfl⟩ := natDegree_eq_zero.1 constant
    rw [h.simplify_constant]
    exact number_ofGaussian c
  · obtain ⟨p, rfl, same⟩ := h.simplify_polynomial degree
    rwa [same]

theorem neg (h : v.Denotes x f) : v.neg.Denotes x (-f) := by
  cases v with
  | matrix m => cases h
  | number a =>
    cases h
    show -C a.toGaussian = C a.neg.toGaussian
    rw [← C_neg]
    cases a with
    | rational q => exact congrArg C (map_neg Gaussian.ofRatHom q).symm
    | complex z => rfl
  | polynomial p => exact Poly.Denotes.neg h

/-! ### Powers -/

theorem powerInt_of_nonneg (h : v.Denotes x f) {n : Int} (sign : 0 ≤ n) :
    ∃ r, powerInt n v = .ok r ∧ r.Denotes x (f ^ n.toNat) := by
  cases v with
  | matrix m => cases h
  | number a =>
    cases h
    obtain ⟨b, run, value⟩ := Number.power_of_nonneg (a := a) sign
    refine ⟨.number b, ?_, ?_⟩
    · rw [powerInt, run]
      rfl
    · rw [Denotes, value, C_pow]
  | polynomial p =>
    obtain ⟨r, run, denotes⟩ := Poly.Denotes.power h n.toNat
    refine ⟨.polynomial r, ?_, denotes⟩
    rw [powerInt, if_pos sign, run]
    rfl

theorem powerInt_constant {c : Gaussian} (h : v.Denotes x (C c)) (nonzero : c ≠ 0) (n : Int) :
    ∃ r, powerInt n v = .ok r ∧ r.Denotes x (C (c ^ n)) := by
  by_cases sign : 0 ≤ n
  · obtain ⟨r, run, denotes⟩ := h.powerInt_of_nonneg sign
    refine ⟨r, run, ?_⟩
    rwa [← C_pow, ← zpow_natCast, Int.toNat_of_nonneg sign] at denotes
  · cases v with
    | matrix m => cases h
    | number a =>
      obtain rfl : c = a.toGaussian := C_injective h
      obtain ⟨b, run, value⟩ := Number.power_of_ne_zero (n := n) nonzero
      refine ⟨.number b, ?_, ?_⟩
      · rw [powerInt, run]
        rfl
      · rw [Denotes, value]
    | polynomial p =>
      obtain ⟨constant, value⟩ := Poly.Denotes.constant h
      refine ⟨.polynomial (.constant x (.scalar (c ^ n))), ?_, Poly.constant_denotes _⟩
      rw [powerInt, if_neg sign, if_pos constant, value, coeffPower, Gaussian.power_of_ne_zero nonzero, h.1]
      rfl

/-- A power is computed only if the exponent is not negative or the base is a constant other than zero. -/
theorem of_powerInt (h : v.Denotes x f) {n : Int} {r : Value} (run : powerInt n v = .ok r) :
    0 ≤ n ∨ ∃ c, c ≠ 0 ∧ f = C c := by
  by_cases sign : 0 ≤ n
  · exact .inl sign
  have negative : n < 0 := not_le.1 sign
  refine .inr ?_
  cases v with
  | matrix m => cases h
  | number a =>
    refine ⟨a.toGaussian, fun zero => ?_, h⟩
    rw [powerInt] at run
    cases power : a.power n with
    | ok b => exact Number.power_ne_ok zero negative power
    | error e =>
      rw [power] at run
      cases run
  | polynomial p =>
    rw [powerInt, if_neg sign] at run
    split at run
    next constant =>
      obtain ⟨c, rfl⟩ := natDegree_eq_zero.1 ((Poly.Denotes.isConstant_iff h).1 constant)
      refine ⟨c, ?_, rfl⟩
      rintro rfl
      rw [(Poly.Denotes.constant h).2, coeffPower, Gaussian.power, if_neg sign, if_pos rfl] at run
      cases run
    · cases run

/-- The exponent that a value is taken as. -/
theorem exponent_eq_ok (h : v.Denotes x f) {n : Int} : v.exponent = .ok n ↔ f = C (Gaussian.ofRat n) := by
  rcases Nat.eq_zero_or_pos f.natDegree with constant | degree
  · obtain ⟨c, rfl⟩ := natDegree_eq_zero.1 constant
    rw [C_inj, exponent, h.simplify_constant, Number.ofGaussian]
    by_cases real : c.im = 0
    · rw [if_pos real]
      constructor
      · intro taken
        simp only at taken
        split at taken
        next whole =>
          obtain rfl := Except.ok.inj taken
          exact Gaussian.ext (Rat.den_eq_one_iff _ |>.1 whole).symm real
        · cases taken
      · rintro rfl
        simp
    · rw [if_neg real]
      constructor
      · exact nofun
      · rintro rfl
        exact absurd rfl real
  · obtain ⟨p, rfl, same⟩ := h.simplify_polynomial degree
    rw [exponent, same]
    constructor
    · exact nofun
    · rintro rfl
      exact absurd (natDegree_C _) degree.ne'

/-- Beside numbers and polynomials with numbers as coefficients a power is computed from the exponent at once. -/
theorem power_eq (h : v.Denotes x f) (w : Value) : v.power w = w.exponent >>= fun n => powerInt n v := by
  cases v with
  | matrix m => cases h
  | _ => rfl

end Value.Denotes

end Reckoner
