import Mathlib.Algebra.Order.Field.Power
import Mathlib.Data.Int.Log
import Mathlib.Data.Rat.Floor
import Mathlib.Tactic.Positivity
import Reckoner.Proofs.Rational.Rounding
/-!
# Numbers too large for a double

`Rational.toDouble_eq_overflow`: a rational number has no nearest double exactly if its absolute value is at least
`(2 ^ 54 - 1) * 2 ^ 970`, the middle between the largest double and the next power of two.

The exponent of the nearest double follows the binary logarithm of the number. Below `2 ^ 1023` the exponent is too small
for an overflow, even where rounding carries into the next power of two; from `2 ^ 1024` on it is too large; in between an
overflow is a carry, and the tie in the middle carries because its lower neighbour is odd.
-/

namespace Reckoner

namespace Double

variable {n d : Nat}

/-! ## The exponent -/

theorem shifted_pos (hd : 0 < d) (k : Int) : 0 < (shifted n d k).2 := by
  unfold shifted
  split
  · exact hd
  · exact Nat.mul_pos hd (Nat.pow_pos (by decide))

theorem shifted_value (n d : Nat) (k : Int) : ((shifted n d k).1 : ℚ) / (shifted n d k).2 = n / d * 2 ^ k := by
  unfold shifted
  split
  next nonnegative =>
    have exponent : (2 : ℚ) ^ k = 2 ^ k.toNat := by
      rw [← zpow_natCast, Int.toNat_of_nonneg nonnegative]
    rw [exponent, Nat.pow_eq, Nat.cast_mul, Nat.cast_pow, mul_div_right_comm]
    rfl
  next negative =>
    have exponent : (2 : ℚ) ^ k = (2 ^ (-k).toNat)⁻¹ := by
      rw [← zpow_natCast, Int.toNat_of_nonneg (by omega), zpow_neg, inv_inv]
    rw [exponent, Nat.pow_eq, Nat.cast_mul, Nat.cast_pow, ← div_eq_mul_inv, div_div]
    rfl

/-- A quotient of natural numbers is less than one power of two away from the quotient of their leading digits. -/
theorem log2_sub_log2 (hn : 0 < n) (hd : 0 < d) :
    (2 : ℚ) ^ ((n.log2 : Int) - d.log2 - 1) ≤ n / d ∧ (n : ℚ) / d < 2 ^ ((n.log2 : Int) - d.log2 + 1) := by
  have two : (2 : ℚ) ≠ 0 := by norm_num
  have dpos : (0 : ℚ) < d := by exact_mod_cast hd
  have nlow : (2 : ℚ) ^ (n.log2 : Int) ≤ n := by exact_mod_cast Nat.log2_self_le hn.ne'
  have nhigh : (n : ℚ) < 2 ^ ((n.log2 : Int) + 1) := by exact_mod_cast Nat.lt_log2_self
  have dlow : (2 : ℚ) ^ (d.log2 : Int) ≤ d := by exact_mod_cast Nat.log2_self_le hd.ne'
  have dhigh : (d : ℚ) < 2 ^ ((d.log2 : Int) + 1) := by exact_mod_cast Nat.lt_log2_self
  constructor
  · rw [le_div_iff₀ dpos]
    calc (2 : ℚ) ^ ((n.log2 : Int) - d.log2 - 1) * d
        ≤ 2 ^ ((n.log2 : Int) - d.log2 - 1) * 2 ^ ((d.log2 : Int) + 1) := by gcongr
      _ = 2 ^ (n.log2 : Int) := by rw [← zpow_add₀ two]; congr 1; ring
      _ ≤ n := nlow
  · rw [div_lt_iff₀ dpos]
    calc (n : ℚ) < 2 ^ ((n.log2 : Int) + 1) := nhigh
      _ = 2 ^ ((n.log2 : Int) - d.log2 + 1) * 2 ^ (d.log2 : Int) := by rw [← zpow_add₀ two]; congr 1; ring
      _ ≤ 2 ^ ((n.log2 : Int) - d.log2 + 1) * d := by gcongr

theorem exponentFor_eq (hn : 0 < n) (hd : 0 < d) : exponentFor n d = max (Int.log 2 ((n : ℚ) / d) - 52) (-1074) := by
  have positive : (0 : ℚ) < n / d := by
    have : (0 : ℚ) < n := by exact_mod_cast hn
    have : (0 : ℚ) < d := by exact_mod_cast hd
    positivity
  obtain ⟨low, high⟩ := log2_sub_log2 hn hd
  simp only [exponentFor]
  set k : Int := (n.log2 : Int) - d.log2 with hk
  have below : Int.log 2 ((n : ℚ) / d) < k + 1 := (Int.lt_zpow_iff_log_lt (by decide) positive).1 high
  have above : k - 1 ≤ Int.log 2 ((n : ℚ) / d) := (Int.zpow_le_iff_le_log (by decide) positive).1 low
  have compared : (shifted n d (-k)).2 ≤ (shifted n d (-k)).1 ↔ k ≤ Int.log 2 ((n : ℚ) / d) := by
    have dpos : (0 : ℚ) < (shifted n d (-k)).2 := by exact_mod_cast shifted_pos hd (-k)
    have powered : (0 : ℚ) < 2 ^ k := by positivity
    rw [← Int.zpow_le_iff_le_log (by decide) positive, ← Nat.cast_le (α := ℚ), ← one_le_div dpos, shifted_value, zpow_neg,
      ← div_eq_mul_inv, one_le_div powered]
    rfl
  split
  next large => rw [show Int.log 2 ((n : ℚ) / d) = k by have := compared.1 large; omega]
  next small => rw [show Int.log 2 ((n : ℚ) / d) = k - 1 by have := mt compared.2 small; omega]; congr 1; ring

/-! ## Rounding up to an even number -/

/-- Below an even number, a quotient is rounded up to it exactly from the middle on. -/
theorem roundHalfEven_eq {a b k : Nat} (hb : 0 < b) (hk : 0 < k) (below : a < 2 * k * b) :
    roundHalfEven a b = 2 * k ↔ (4 * k - 1) * b ≤ 2 * a := by
  have split : b * (a / b) + a % b = a := Nat.div_add_mod a b
  have left : a % b < b := Nat.mod_lt a hb
  have quotient : a / b < 2 * k := (Nat.div_lt_iff_lt_mul hb).2 below
  obtain ⟨j, rfl⟩ : ∃ j, k = j + 1 := ⟨k - 1, by omega⟩
  by_cases last : a / b = 2 * j + 1
  · have middle : (4 * (j + 1) - 1) * b ≤ 2 * a ↔ b ≤ 2 * (a % b) := by
      have scaled : (4 * (j + 1) - 1) * b = 2 * (b * (2 * j + 1)) + b := by
        rw [show 4 * (j + 1) - 1 = 2 * (2 * j + 1) + 1 by omega]
        ring
      rw [last] at split
      omega
    rw [middle]
    simp only [roundHalfEven, last]
    split
    · omega
    · split <;> omega
  · have scaled : (a / b + 1) * b ≤ (2 * j + 1) * b := Nat.mul_le_mul_right b (by omega)
    have expanded : (a / b + 1) * b = b * (a / b) + b := by ring
    have doubled : 2 * ((2 * j + 1) * b) + b = (4 * (j + 1) - 1) * b := by
      rw [show 4 * (j + 1) - 1 = 2 * (2 * j + 1) + 1 by omega]
      ring
    simp only [roundHalfEven]
    constructor
    · intro rounded
      split at rounded
      · omega
      · split at rounded <;> omega
    · omega

/-! ## Overflow -/

/-- The least number that is too large for a double. -/
def overflowBound : Rat := (2 ^ 54 - 1) * 2 ^ 970

theorem overflowBound_between : (2 : ℚ) ^ (1023 : Int) ≤ overflowBound ∧ overflowBound < 2 ^ (1024 : Int) := by
  have high : (2 : ℚ) ^ (1024 : Int) = 2 ^ 54 * 2 ^ 970 := by rw [← pow_add]; rfl
  have low : (2 : ℚ) ^ (1023 : Int) = 2 ^ 53 * 2 ^ 970 := by rw [← pow_add]; rfl
  rw [overflowBound, high, low]
  constructor
  · gcongr
    norm_num
  · gcongr
    norm_num

/-- A double is too large by its exponent, or by a carry above the largest exponent. -/
theorem nearest_eq_infinite_iff (negative : Bool) (hn : 0 < n) :
    nearest negative n d = .infinite negative ↔ 971 < exponentFor n d ∨ exponentFor n d = 971 ∧
      roundHalfEven (shifted n d (-971)).1 (shifted n d (-971)).2 = 2 * leastNormal := by
  have exceeds : nearest negative n d = .infinite negative ↔
      971 < if roundHalfEven (shifted n d (-exponentFor n d)).1 (shifted n d (-exponentFor n d)).2 = 2 * leastNormal
        then exponentFor n d + 1 else exponentFor n d := by
    simp only [nearest, if_neg hn.ne']
    split <;> simp_all
  rw [exceeds]
  by_cases largest : exponentFor n d = 971
  · rw [largest]
    split <;> simp_all
  · split <;> omega

/-- Where the exponent is the largest one, rounding carries from the overflow bound on. -/
theorem carry_iff (hd : 0 < d) (below : (n : ℚ) / d < 2 ^ (1024 : Int)) :
    roundHalfEven (shifted n d (-971)).1 (shifted n d (-971)).2 = 2 * leastNormal ↔ overflowBound ≤ (n : ℚ) / d := by
  have positive : (0 : ℚ) < (shifted n d (-971)).2 := by exact_mod_cast shifted_pos hd (-971)
  have value := shifted_value n d (-971)
  set a := (shifted n d (-971)).1
  set b := (shifted n d (-971)).2
  have unit : (0 : ℚ) < 2 ^ 970 := by positivity
  have measured : (n : ℚ) / d = 2 * a * 2 ^ 970 / b := by
    have scale : (2 : ℚ) ^ (-971 : Int) * (2 * 2 ^ 970) = 1 := by
      rw [zpow_neg, inv_mul_eq_one₀ (by positivity), ← pow_succ']
      rfl
    calc (n : ℚ) / d = n / d * (2 ^ (-971 : Int) * (2 * 2 ^ 970)) := by rw [scale, mul_one]
      _ = a / b * (2 * 2 ^ 970) := by rw [← mul_assoc, value]
      _ = 2 * a * 2 ^ 970 / b := by rw [div_mul_eq_mul_div, ← mul_assoc, mul_comm (a : ℚ) 2]
  have small : a < 2 * leastNormal * b := by
    have power : (2 : ℚ) ^ (1024 : Int) = 2 ^ 54 * 2 ^ 970 := by rw [← pow_add]; rfl
    rw [measured, power, div_lt_iff₀ positive, mul_right_comm (2 ^ 54), mul_lt_mul_iff_left₀ unit] at below
    have below : 2 * a < 2 ^ 54 * b := by exact_mod_cast below
    have least : leastNormal = 2 ^ 52 := rfl
    rw [least]
    omega
  have middle : ((4 * leastNormal - 1 : Nat) : ℚ) = 2 ^ 54 - 1 := by norm_num [leastNormal]
  rw [roundHalfEven_eq (by exact_mod_cast positive) (by decide) small, measured, overflowBound, le_div_iff₀ positive,
    mul_right_comm, mul_le_mul_iff_left₀ unit, ← Nat.cast_le (α := ℚ), Nat.cast_mul, Nat.cast_mul, middle]
  rfl

theorem nearest_eq_infinite (negative : Bool) (hn : 0 < n) (hd : 0 < d) :
    nearest negative n d = .infinite negative ↔ overflowBound ≤ (n : ℚ) / d := by
  have positive : (0 : ℚ) < n / d := by
    have : (0 : ℚ) < n := by exact_mod_cast hn
    have : (0 : ℚ) < d := by exact_mod_cast hd
    positivity
  have low : (2 : ℚ) ^ Int.log 2 ((n : ℚ) / d) ≤ n / d := Int.zpow_log_le_self (by decide) positive
  have high : (n : ℚ) / d < 2 ^ (Int.log 2 ((n : ℚ) / d) + 1) := Int.lt_zpow_succ_log_self (by decide) _
  obtain ⟨above, below⟩ := overflowBound_between
  rw [nearest_eq_infinite_iff negative hn, exponentFor_eq hn hd]
  set l := Int.log 2 ((n : ℚ) / d)
  rcases lt_trichotomy l 1023 with small | middle | large
  · have less : (n : ℚ) / d < overflowBound :=
      calc (n : ℚ) / d < 2 ^ (l + 1) := high
        _ ≤ 2 ^ (1023 : Int) := zpow_le_zpow_right₀ (by norm_num) (by omega)
        _ ≤ overflowBound := above
    constructor
    · omega
    · intro bound
      exact absurd less bound.not_gt
  · have exponent : max (l - 52) (-1074) = 971 := by omega
    have bounded : (n : ℚ) / d < 2 ^ (1024 : Int) := by
      rw [middle] at high
      exact high
    rw [exponent, carry_iff hd bounded]
    simp
  · have greater : overflowBound ≤ (n : ℚ) / d :=
      calc overflowBound ≤ 2 ^ (1024 : Int) := below.le
        _ ≤ 2 ^ l := zpow_le_zpow_right₀ (by norm_num) (by omega)
        _ ≤ (n : ℚ) / d := low
    exact ⟨fun _ => greater, fun _ => .inl (by omega)⟩

theorem infinite_sign {negative s : Bool} (h : nearest negative n d = .infinite s) : s = negative := by
  simp only [nearest] at h
  split at h
  · cases h
  · split at h <;> split at h <;> cases h
    all_goals rfl

theorem ofRat?_eq_none (q : Rat) : ofRat? q = none ↔ overflowBound ≤ |q| := by
  have dpos : 0 < q.den := q.den_pos
  have size := Rational.natAbs_div_den q
  by_cases zero : q.num.natAbs = 0
  · have small : ¬overflowBound ≤ |q| := by
      rw [← size, zero, Nat.cast_zero, zero_div, not_le, overflowBound]
      norm_num
    simp [ofRat?, ofRat, nearest, zero, small]
  · have infinite := nearest_eq_infinite (decide (q < 0)) (Nat.pos_of_ne_zero zero) dpos
    rw [size] at infinite
    rw [← infinite, ofRat?]
    split
    next s found =>
      have sign : s = decide (q < 0) := infinite_sign found
      rw [sign] at found
      exact iff_of_true rfl found
    next finite => exact iff_of_false nofun (finite _)

end Double

namespace Rational

/-- A rational number has no nearest double from the overflow bound on. -/
theorem toDouble_eq_overflow {q : Rat} : toDouble q = .error .overflow ↔ Double.overflowBound ≤ |q| := by
  rw [← Double.ofRat?_eq_none, toDouble]
  split <;> simp_all

theorem toDouble_cases (q : Rat) :
    (∃ d, toDouble q = .ok d) ∧ |q| < Double.overflowBound ∨
      toDouble q = .error .overflow ∧ Double.overflowBound ≤ |q| := by
  rw [← toDouble_eq_overflow, ← not_le, ← toDouble_eq_overflow, toDouble]
  split <;> simp

end Rational

end Reckoner
