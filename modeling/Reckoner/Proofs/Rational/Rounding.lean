import Mathlib.Algebra.Order.Field.Rat
import Mathlib.Algebra.Order.Floor.Ring
import Mathlib.Algebra.Order.Floor.Semifield
import Mathlib.Data.Rat.Floor
import Mathlib.Tactic.Linarith
import Mathlib.Tactic.Positivity
import Mathlib.Tactic.Ring
import Reckoner.Proofs.Outcome
import Reckoner.Rational.Rendering
/-!
# Rounding to decimals

`Rational.roundedTo_ne_roundedTo`: numbers at least one unit of the last place apart are rounded to different numbers. A
half goes away from zero, so of two numbers that lie on halves not both can go towards each other.

`Rational.roundedTo_eq_zero`: only what is less than half a unit from zero is rounded to zero.

`Rational.isWritableTo_iff`: rounding fails just if the rounded number has more units before the point, or more units of the
last place after it, than a numeral can say.
-/

namespace Reckoner.Rational

variable {places : Nat} {q x y : Rat}

theorem natAbs_div_den (q : Rat) : (q.num.natAbs : Rat) / q.den = |q| := by
  rw [Nat.cast_natAbs, Int.cast_abs, ← Nat.abs_cast (R := Rat) q.den, ← abs_div, Rat.num_div_den]

/-- The units are nearest to the absolute value, and a half goes up. -/
theorem units_near (places : Nat) (q : Rat) :
    |q| * 10 ^ places < units places q + 1 / 2 ∧ (units places q : Rat) ≤ |q| * 10 ^ places + 1 / 2 := by
  have den : (0 : Rat) < q.den := by exact_mod_cast q.den_pos
  set scaled := q.num.natAbs * Nat.pow 10 places with scaled_eq
  have value : |q| * 10 ^ places = scaled / q.den := by
    rw [scaled_eq, ← natAbs_div_den, Nat.pow_eq, div_mul_eq_mul_div]
    push_cast
    rfl
  have split : q.den * (scaled / q.den) + scaled % q.den = scaled := Nat.div_add_mod scaled q.den
  have left : scaled % q.den < q.den := Nat.mod_lt scaled q.den_pos
  have rounded : units places q = scaled / q.den + if q.den ≤ 2 * (scaled % q.den) then 1 else 0 := rfl
  generalize scaled / q.den = quotient at split rounded
  generalize scaled % q.den = rest at split left rounded
  have below : 2 * scaled < (2 * units places q + 1) * q.den := by
    rw [rounded]
    split_ifs <;> nlinarith
  have above : 2 * units places q * q.den ≤ 2 * scaled + q.den := by
    rw [rounded]
    split_ifs <;> nlinarith
  rw [value]
  constructor
  · rw [div_lt_iff₀ den]
    have : (2 * scaled : Rat) < (2 * units places q + 1) * q.den := by exact_mod_cast below
    linarith
  · rw [← sub_le_iff_le_add, le_div_iff₀ den]
    have : (2 * units places q * q.den : Rat) ≤ 2 * scaled + q.den := by exact_mod_cast above
    linarith

theorem roundedTo_of_nonneg (h : 0 ≤ q) : roundedTo places q = units places q / 10 ^ places := by
  rw [roundedTo, if_neg h.not_gt, Rat.mkRat_eq_div, Nat.pow_eq]
  push_cast
  rfl

theorem roundedTo_of_neg (h : q < 0) : roundedTo places q = -(units places q / 10 ^ places) := by
  rw [roundedTo, if_pos h, Rat.mkRat_eq_div, Nat.pow_eq]
  push_cast
  rfl

/-- A number that is not negative is nearest, and goes up from a half. -/
theorem roundedTo_near_of_nonneg (places : Nat) (h : 0 ≤ q) :
    q * 10 ^ places - 1 / 2 < roundedTo places q * 10 ^ places ∧ roundedTo places q * 10 ^ places ≤ q * 10 ^ places + 1 / 2 := by
  have scale : (10 : Rat) ^ places ≠ 0 := by positivity
  obtain ⟨low, high⟩ := units_near places q
  rw [abs_of_nonneg h] at low high
  rw [roundedTo_of_nonneg h, div_mul_cancel₀ _ scale]
  constructor <;> linarith

/-- A negative number is nearest, and goes down from a half. -/
theorem roundedTo_near_of_neg (places : Nat) (h : q < 0) :
    q * 10 ^ places - 1 / 2 ≤ roundedTo places q * 10 ^ places ∧ roundedTo places q * 10 ^ places < q * 10 ^ places + 1 / 2 := by
  have scale : (10 : Rat) ^ places ≠ 0 := by positivity
  obtain ⟨low, high⟩ := units_near places q
  rw [abs_of_neg h] at low high
  rw [roundedTo_of_neg h, neg_mul, div_mul_cancel₀ _ scale]
  constructor <;> linarith

/-- Numbers at least one unit of the last place apart stay apart. -/
theorem roundedTo_lt_roundedTo (apart : 1 ≤ (y - x) * 10 ^ places) : roundedTo places x < roundedTo places y := by
  have scale : (0 : Rat) < 10 ^ places := by positivity
  have less : x < y := by
    by_contra notLess
    have := mul_nonpos_of_nonpos_of_nonneg (sub_nonpos.2 (not_lt.1 notLess)) scale.le
    linarith
  rw [← mul_lt_mul_iff_of_pos_right scale]
  rcases lt_or_ge y 0 with negative | nonnegative
  · have low := (roundedTo_near_of_neg places negative).1
    have high := (roundedTo_near_of_neg places (less.trans negative)).2
    linarith
  · have low := (roundedTo_near_of_nonneg places nonnegative).1
    have high : roundedTo places x * 10 ^ places ≤ x * 10 ^ places + 1 / 2 := by
      rcases lt_or_ge x 0 with negative' | nonnegative'
      · exact (roundedTo_near_of_neg places negative').2.le
      · exact (roundedTo_near_of_nonneg places nonnegative').2
    linarith

theorem roundedTo_ne_roundedTo (apart : 1 ≤ |y - x| * 10 ^ places) : roundedTo places x ≠ roundedTo places y := by
  rcases abs_choice (y - x) with same | opposite
  · rw [same] at apart
    exact (roundedTo_lt_roundedTo apart).ne
  · rw [opposite, neg_sub] at apart
    exact (roundedTo_lt_roundedTo apart).ne'

/-- Only less than half a unit of the last place is rounded to zero. -/
theorem roundedTo_eq_zero : roundedTo places q = 0 ↔ |q| * 10 ^ places < 1 / 2 := by
  have scale : (10 : Rat) ^ places ≠ 0 := by positivity
  have none : roundedTo places q = 0 ↔ units places q = 0 := by
    rcases lt_or_ge q 0 with negative | nonnegative
    · rw [roundedTo_of_neg negative, neg_eq_zero, div_eq_zero_iff, or_iff_left scale, Nat.cast_eq_zero]
    · rw [roundedTo_of_nonneg nonnegative, div_eq_zero_iff, or_iff_left scale, Nat.cast_eq_zero]
  obtain ⟨low, high⟩ := units_near places q
  rw [none]
  constructor
  · intro zero
    rwa [zero, Nat.cast_zero, zero_add] at low
  · intro small
    have : (units places q : Rat) < 1 := by linarith
    exact Nat.lt_one_iff.1 (by exact_mod_cast this)

theorem units_neg (places : Nat) (q : Rat) : units places (-q) = units places q := by
  rw [units, units, Rat.neg_num, Rat.neg_den, Int.natAbs_neg]

/-- Opposite numbers are rounded to opposite numbers: a half goes away from zero on both sides. -/
theorem roundedTo_neg (places : Nat) (q : Rat) : roundedTo places (-q) = -roundedTo places q := by
  rcases lt_trichotomy q 0 with negative | rfl | positive
  · rw [roundedTo_of_nonneg (neg_nonneg.2 negative.le), roundedTo_of_neg negative, units_neg, neg_neg]
  · rw [neg_zero, roundedTo_eq_zero.2 (by norm_num), neg_zero]
  · rw [roundedTo_of_neg (neg_neg_of_pos positive), roundedTo_of_nonneg positive.le, units_neg]

/-! ## Numerals -/

theorem abs_roundedTo (places : Nat) (q : Rat) : |roundedTo places q| = (units places q : Rat) / (10 ^ places : Nat) := by
  have positive : (0 : Rat) ≤ units places q / 10 ^ places := by positivity
  push_cast
  rcases lt_or_ge q 0 with negative | nonnegative
  · rw [roundedTo_of_neg negative, abs_neg, abs_of_nonneg positive]
  · rw [roundedTo_of_nonneg nonnegative, abs_of_nonneg positive]

/-- The two numerals of a number with so many decimals, before and after the point, have no more digits than can be
written; the one after the point counts units of the last place, and so it is long where many places are asked for. -/
structure ShortNumerals (places : Nat) (r : Rat) : Prop where
  whole : ⌊|r|⌋₊ < 10 ^ Text.longestNumeral
  decimals : Int.fract |r| * 10 ^ places < 10 ^ Text.longestNumeral

/-- A number can be rounded exactly if the rounded number has short numerals. -/
theorem isWritableTo_iff : isWritableTo places q = true ↔ ShortNumerals places (roundedTo places q) := by
  have scale : (10 ^ places : Rat) ≠ 0 := by positivity
  have whole : ⌊|roundedTo places q|⌋₊ = units places q / 10 ^ places := by rw [abs_roundedTo, Nat.floor_div_eq_div]
  have decimals : Int.fract |roundedTo places q| * 10 ^ places = (units places q % 10 ^ places : Nat) := by
    rw [abs_roundedTo, Int.fract_div_natCast_eq_div_natCast_mod, Nat.cast_pow, Nat.cast_ofNat, div_mul_cancel₀ _ scale]
  rw [isWritableTo, Bool.and_eq_true, Text.isWritable, Text.isWritable, decide_eq_true_iff, decide_eq_true_iff, Nat.pow_eq,
    Nat.pow_eq]
  constructor
  · rintro ⟨short, shortDecimals⟩
    exact ⟨whole.trans_lt short, by rw [decimals]; exact_mod_cast shortDecimals⟩
  · rintro ⟨short, shortDecimals⟩
    rw [decimals] at shortDecimals
    exact ⟨whole.symm.trans_lt short, by exact_mod_cast shortDecimals⟩

/-- Numbers that are not huge can be rounded to as many places as a numeral has digits. -/
theorem isWritableTo_of_le (few : places ≤ Text.longestNumeral) (size : |q| + 1 ≤ 10 ^ Text.longestNumeral) :
    isWritableTo places q = true := by
  have scale : (0 : Rat) < 10 ^ places := by positivity
  have near : |roundedTo places q| < |q| + 1 := by
    have high := (units_near places q).2
    rw [abs_roundedTo, Nat.cast_pow, Nat.cast_ofNat, div_lt_iff₀ scale]
    have unit : (1 : Rat) ≤ 10 ^ places := one_le_pow₀ (by norm_num)
    linarith
  refine isWritableTo_iff.2 ⟨?_, ?_⟩
  · have less := (Nat.floor_le (abs_nonneg _)).trans_lt (near.trans_le size)
    exact_mod_cast less
  · calc Int.fract |roundedTo places q| * 10 ^ places < 1 * 10 ^ places :=
          mul_lt_mul_of_pos_right (Int.fract_lt_one _) scale
      _ ≤ 10 ^ Text.longestNumeral := by rw [one_mul]; exact pow_le_pow_right₀ (by norm_num) few

theorem isWritableTo_neg (places : Nat) (q : Rat) : isWritableTo places (-q) = isWritableTo places q := by
  rw [isWritableTo, isWritableTo, units_neg]

/-- Rounding, where it does not fail, gives opposite numbers for opposite numbers. -/
theorem round_neg (places : Nat) (q : Rat) : round places (-q) = (round places q).map (-·) := by
  rw [round, round, Outcome.map_written, isWritableTo_neg, roundedTo_neg]

end Reckoner.Rational
