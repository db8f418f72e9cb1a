import Mathlib.Data.Rat.Floor
import Mathlib.Tactic.FieldSimp
import Mathlib.Tactic.Ring
import Reckoner.Proofs.Outcome
import Reckoner.Proofs.Rational.Root
import Reckoner.Proofs.Value.Power
import Reckoner.Rational.Fraction
/-!
# Fractions in lowest terms

Each rational number has one fraction in lowest terms, and bringing two integers to lowest terms gives the one of their
quotient. Main statement: on fractions in lowest terms every operation gives the one of the number that it gives on
rational numbers, and is refused where that is.
-/

namespace Reckoner.Fraction

open Rational

variable {p q r : Rat}

/-! ## Lowest terms -/

/-- The fraction in lowest terms of a rational number. -/
def ofRat (q : Rat) : Fraction := ⟨q.num, q.den⟩

/-- A positive denominator without a common divisor with the numerator. -/
structure Lowest (a : Fraction) : Prop where
  positive : 0 < a.denominator
  coprime : a.numerator.gcd a.denominator = 1

@[simp] theorem value_ofRat (q : Rat) : (ofRat q).value = q := by
  rw [value, ofRat, Int.cast_natCast, Rat.num_div_den]

theorem lowest_ofRat (q : Rat) : (ofRat q).Lowest where
  positive := Int.natCast_pos.2 q.den_pos
  coprime := q.reduced

theorem Lowest.eq_ofRat {a : Fraction} (h : a.Lowest) : a = ofRat a.value := by
  have numerator := Rat.num_div_eq_of_coprime h.positive h.coprime
  have denominator := Rat.den_div_eq_of_coprime h.positive h.coprime
  rw [ofRat, value, numerator, denominator]

@[simp] theorem ofRat_inj : ofRat p = ofRat q ↔ p = q :=
  ⟨fun h => by rw [← value_ofRat p, h, value_ofRat], fun h => h ▸ rfl⟩

@[simp] theorem ofRat_numerator (q : Rat) : (ofRat q).numerator = q.num := rfl

@[simp] theorem ofRat_denominator (q : Rat) : (ofRat q).denominator = q.den := rfl

theorem ofRat_numerator_eq_zero : (ofRat q).numerator = 0 ↔ q = 0 := Rat.num_eq_zero

theorem ofRat_intCast (i : Int) : ofRat i = ofInt i := rfl

/-- Cancelling changes neither the quotient nor the sign of the denominator, and leaves no common divisor. -/
theorem cancelled_eq {n d : Int} (positive : 0 < d) : cancelled n d = ofRat (n / d) := by
  have divisor : 0 < n.gcd d := Int.gcd_pos_of_ne_zero_right n positive.ne'
  have nonzero : ((n.gcd d : Int) : Rat) ≠ 0 := by exact_mod_cast divisor.ne'
  have lowest : (cancelled n d).Lowest :=
    ⟨Int.ediv_pos_of_pos_of_dvd positive (Int.natCast_nonneg _) (Int.gcd_dvd_right n d),
      Int.gcd_div_gcd_div_gcd divisor⟩
  rw [lowest.eq_ofRat, value, cancelled, Int.cast_div (Int.gcd_dvd_left n d) nonzero,
    Int.cast_div (Int.gcd_dvd_right n d) nonzero, div_div_div_cancel_right₀ nonzero]

/-- Two integers are brought to the lowest terms of their quotient. -/
theorem reduced_eq {n d : Int} (nonzero : d ≠ 0) : reduced n d = .ok (ofRat (n / d)) := by
  rw [reduced, if_neg nonzero]
  split
  next negative => rw [cancelled_eq (neg_pos.2 negative), Int.cast_neg, Int.cast_neg, neg_div_neg_eq]
  next nonnegative => rw [cancelled_eq (lt_of_le_of_ne (not_lt.1 nonnegative) nonzero.symm)]

/-! ## Order -/

theorem compares_less : compares (· < ·) (ofRat p) (ofRat q) = decide (p < q) :=
  decide_eq_decide.2 (Rat.lt_iff p q).symm

theorem compares_atMost : compares (· ≤ ·) (ofRat p) (ofRat q) = decide (p ≤ q) :=
  decide_eq_decide.2 (Rat.le_iff p q).symm

theorem compares_greater : compares (· > ·) (ofRat p) (ofRat q) = decide (p > q) :=
  decide_eq_decide.2 (Rat.lt_iff q p).symm

theorem compares_atLeast : compares (· ≥ ·) (ofRat p) (ofRat q) = decide (p ≥ q) :=
  decide_eq_decide.2 (Rat.le_iff q p).symm

/-! ## Arithmetic -/

theorem den_ne_zero (q : Rat) : (q.den : Rat) ≠ 0 := Nat.cast_ne_zero.2 q.den_nz

theorem reduced_eq_of_div {n d : Int} (nonzero : d ≠ 0) (value : (n / d : Rat) = r) : reduced n d = .ok (ofRat r) :=
  value ▸ reduced_eq nonzero

theorem product_ne_zero (p q : Rat) : ((p.den * q.den : Int)) ≠ 0 :=
  mul_ne_zero (Int.natCast_ne_zero.2 p.den_nz) (Int.natCast_ne_zero.2 q.den_nz)

theorem add_eq (p q : Rat) : (ofRat p).add (ofRat q) = .ok (ofRat (p + q)) := by
  refine reduced_eq_of_div (product_ne_zero p q) ?_
  conv_rhs => rw [← p.num_div_den, ← q.num_div_den, div_add_div _ _ (den_ne_zero p) (den_ne_zero q)]
  push_cast [ofRat]
  ring

theorem sub_eq (p q : Rat) : (ofRat p).sub (ofRat q) = .ok (ofRat (p - q)) := by
  refine reduced_eq_of_div (product_ne_zero p q) ?_
  conv_rhs => rw [← p.num_div_den, ← q.num_div_den, div_sub_div _ _ (den_ne_zero p) (den_ne_zero q)]
  push_cast [ofRat]
  ring

theorem mul_eq (p q : Rat) : (ofRat p).mul (ofRat q) = .ok (ofRat (p * q)) := by
  refine reduced_eq_of_div (product_ne_zero p q) ?_
  conv_rhs => rw [← p.num_div_den, ← q.num_div_den, div_mul_div_comm]
  push_cast [ofRat]
  rfl

/-- The crosswise products whose quotient is the quotient of two numbers. -/
theorem crosswise_div (p q : Rat) :
    (((p.num * q.den : Int) : Rat) / ((p.den * q.num : Int) : Rat)) = p / q := by
  conv_rhs => rw [← p.num_div_den, ← q.num_div_den, div_div_div_eq]
  push_cast
  rfl

theorem crosswise_ne_zero (p : Rat) (h : q ≠ 0) : (p.den * q.num : Int) ≠ 0 :=
  mul_ne_zero (Int.natCast_ne_zero.2 p.den_nz) (Rat.num_ne_zero.2 h)

theorem divide_eq (p q : Rat) : (ofRat p).divide (ofRat q) = (Rational.divide p q).map ofRat := by
  by_cases h : q = 0
  · rw [divide, if_pos (ofRat_numerator_eq_zero.2 h), Rational.divide, if_pos h]
    rfl
  · rw [divide, if_neg (mt ofRat_numerator_eq_zero.1 h), Rational.divide, if_neg h]
    exact reduced_eq_of_div (crosswise_ne_zero p h) (crosswise_div p q)

/-! ### Remainders -/

theorem timesIn_eq_tdiv (n d : Int) : timesIn n d = n.tdiv d := by
  have natural : ∀ m : Nat, ¬((m : Int) < 0) := fun m => (Int.natCast_nonneg m).not_gt
  cases n <;> cases d <;> simp [timesIn, Int.tdiv, natural, Int.negSucc_lt_zero]

/-- The integer part of a quotient does not depend on the terms. -/
theorem timesIn_eq_truncate {n d : Int} (nonzero : d ≠ 0) : timesIn n d = truncate (n / d) := by
  obtain ⟨c, numerator, denominator⟩ := Rat.num_den_mk nonzero (Rat.intCast_div_eq_divInt n d)
  generalize (n / d : Rat) = x at numerator denominator
  rw [timesIn_eq_tdiv, truncate, numerator, denominator]
  rcases lt_trichotomy c 0 with negative | rfl | positive
  · rw [← Int.neg_tdiv_neg, ← neg_mul, ← neg_mul, Int.mul_tdiv_mul_of_pos _ _ (neg_pos.2 negative)]
  · exact absurd (denominator.trans (zero_mul _)) nonzero
  · exact Int.mul_tdiv_mul_of_pos _ _ positive

theorem modulo_eq (p q : Rat) : (ofRat p).modulo (ofRat q) = (Rational.modulo p q).map ofRat := by
  by_cases h : q = 0
  · rw [modulo, if_pos (ofRat_numerator_eq_zero.2 h), Rational.modulo, if_pos h]
    rfl
  · have times : timesIn (p.num * q.den) (p.den * q.num) = truncate (p / q) := by
      rw [timesIn_eq_truncate (crosswise_ne_zero p h), crosswise_div]
    rw [modulo, if_neg (mt ofRat_numerator_eq_zero.1 h), Rational.modulo, if_neg h]
    simp only [ofRat_numerator, ofRat_denominator, times, ← ofRat_intCast, mul_eq]
    exact sub_eq _ _

/-! ### Powers and signs -/

theorem power_eq (q : Rat) (n : Int) : (ofRat q).power n = (Rational.power q n).map ofRat := by
  rw [power]
  split
  next negative =>
    by_cases h : q = 0
    · rw [if_pos (ofRat_numerator_eq_zero.2 h), Rational.power, if_neg negative.not_ge, if_pos h]
      rfl
    · have opposite : n = -((-n).toNat : Int) := by omega
      rw [if_neg (mt ofRat_numerator_eq_zero.1 h), Rational.power_of_ne_zero h]
      refine reduced_eq_of_div (pow_ne_zero _ (Rat.num_ne_zero.2 h)) ?_
      conv_rhs => rw [opposite, zpow_neg, zpow_natCast, ← inv_pow, Rat.inv_def, Rat.divInt_eq_div, div_pow]
      push_cast [ofRat, Int.pow_eq]
      rfl
  next nonnegative =>
    rw [Rational.power_of_nonneg (not_lt.1 nonnegative)]
    refine reduced_eq_of_div (pow_ne_zero _ (Int.natCast_ne_zero.2 q.den_nz)) ?_
    conv_rhs => rw [← q.num_div_den, div_pow]
    push_cast [ofRat, Int.pow_eq]
    rfl

theorem neg_eq (q : Rat) : (ofRat q).neg = .ok (ofRat (-q)) := by
  refine reduced_eq_of_div (Int.natCast_ne_zero.2 q.den_nz) ?_
  conv_rhs => rw [← q.num_div_den, ← neg_div]
  push_cast [ofRat]
  rfl

theorem abs_eq (q : Rat) : (ofRat q).abs = .ok (ofRat (Rational.abs q)) := by
  refine reduced_eq_of_div (Int.natCast_ne_zero.2 q.den_nz) ?_
  rw [Rational.abs_eq, ← natAbs_div_den]
  rfl

theorem exponent_eq (q : Rat) : (ofRat q).exponent = (Value.rational q).exponent := by
  have simplest : (Value.rational q).simplify = .rational q := rfl
  have natural : Text.signedNumeral q.den = Text.numeral q.den := if_neg (Int.natCast_nonneg q.den).not_gt
  have shown : (ofRat q).text = Rational.text q := by
    rw [text, ofRat_numerator, ofRat_denominator, natural, Rational.text]
    simp only [Nat.cast_eq_one]
  rw [exponent, Value.exponent, simplest, shown, ofRat_numerator, ofRat_denominator]
  simp only [Nat.cast_eq_one, Value.rational]

end Reckoner.Fraction
