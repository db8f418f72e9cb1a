import Reckoner.Proofs.Double.Root
import Reckoner.Proofs.Outcome
import Reckoner.Rational.Root
/-!
# Square roots

The square root of a square is exact. Any other one is taken among doubles and rounded, if the number has a nearest
double.

`Rational.le_sqrt_sq`: the root that is found is at least half of the exact one, less half a unit of the last place,
unless the number is too small for a double. The factors by which a rounding to a double is off, one for the number and
one for its root, multiply to two.
-/

namespace Reckoner.Rational

variable {places : Nat} {q root s : Rat}

/-! ## Absolute values -/

theorem abs_of_pos (h : 0 < q) : abs q = q := if_neg h.not_gt

theorem abs_of_neg (h : q < 0) : abs q = -q := if_pos h

theorem abs_eq (q : Rat) : abs q = |q| := by
  rcases lt_or_ge q 0 with negative | nonnegative
  · rw [abs_of_neg negative, abs_eq_neg_self.2 negative.le]
  · rw [abs, if_neg nonnegative.not_gt, abs_of_nonneg nonnegative]

theorem zero_le_abs (q : Rat) : 0 ≤ abs q := by
  rw [abs_eq]
  exact abs_nonneg q

theorem ne_zero_of_mul_self (square : root * root = abs q) (nonzero : q ≠ 0) : root ≠ 0 := by
  rintro rfl
  rw [mul_zero, abs_eq, eq_comm, abs_eq_zero] at square
  exact nonzero square

/-! ## Exact roots -/

theorem exactRoot?_square (s : Rat) : exactRoot? (s * s) = some |s| := by
  have numerator : (s * s).num.toNat.sqrt = s.num.natAbs := by
    rw [Rat.mul_self_num, ← Int.natAbs_mul_self, Int.toNat_natCast, Nat.sqrt_eq]
  have denominator : (s * s).den.sqrt = s.den := by rw [Rat.mul_self_den, Nat.sqrt_eq]
  have squares : (s.num.natAbs * s.num.natAbs : Int) = (s * s).num ∧ s.den * s.den = (s * s).den :=
    ⟨by rw [Rat.mul_self_num, Int.natAbs_mul_self'], (Rat.mul_self_den s).symm⟩
  simp only [exactRoot?, numerator, denominator, if_pos squares]
  rw [Rat.mkRat_eq_div, Int.cast_natCast, natAbs_div_den]

/-- What is found as an exact root is one. -/
theorem exactRoot?_spec (h : exactRoot? q = some root) : 0 ≤ root ∧ root * root = q := by
  simp only [exactRoot?] at h
  split at h
  next squares =>
    cases h
    have numerator : ((q.num.toNat.sqrt : Rat) * q.num.toNat.sqrt) = q.num := by exact_mod_cast squares.1
    have denominator : ((q.den.sqrt : Rat) * q.den.sqrt) = q.den := by exact_mod_cast squares.2
    rw [Rat.mkRat_eq_div, Int.cast_natCast]
    exact ⟨by positivity, by rw [div_mul_div_comm, numerator, denominator, Rat.num_div_den]⟩
  · cases h

theorem sqrt_mul_self (s : Rat) (places : Nat) : sqrt places (s * s) = .ok (abs s) := by
  rw [sqrt, if_neg (not_lt.2 (mul_self_nonneg s)), exactRoot?_square, abs_eq]

/-- The square root of a square is exact. -/
theorem sqrt_square (h : q = s * s) (places : Nat) : ∃ root, sqrt places q = .ok root ∧ root * root = q :=
  ⟨abs s, by rw [h, sqrt_mul_self], by rw [h, abs_eq, abs_mul_abs_self]⟩

/-! ## Rounded roots -/

/-- A root is exact, or it is taken of the nearest double and rounded. -/
theorem sqrt_cases (taken : sqrt places q = .ok root) : 0 ≤ root ∧ root * root = q ∨
    ∃ d, toDouble q = .ok d ∧ root = d.sqrt.roundedTo places := by
  unfold sqrt at taken
  split at taken
  · exact absurd taken Outcome.refuse_ne_ok
  · split at taken
    next exact =>
      cases taken
      exact .inl (exactRoot?_spec exact)
    · obtain ⟨d, nearest, rounded⟩ := Outcome.bind_eq_ok.1 taken
      split at rounded
      · cases rounded
        exact .inr ⟨d, nearest, rfl⟩
      · cases rounded

theorem sqrt_nonneg (taken : sqrt places q = .ok root) : 0 ≤ root := by
  rcases sqrt_cases taken with ⟨nonneg, -⟩ | ⟨d, -, rfl⟩
  · exact nonneg
  · exact d.sqrt.roundedTo_nonneg places

/-- A number that has a nearest double has a root with few enough decimals. -/
theorem exists_sqrt (nonneg : 0 ≤ q) (small : q < Double.overflowBound) (enough : places ≤ greatestPlaces) :
    ∃ root, sqrt places q = .ok root := by
  rw [sqrt, if_neg nonneg.not_gt]
  cases exactRoot? q with
  | some root => exact ⟨root, rfl⟩
  | none =>
    rcases toDouble_cases q with ⟨⟨d, nearest⟩, -⟩ | ⟨-, large⟩
    · refine ⟨d.sqrt.roundedTo places, ?_⟩
      simp only [approximateRoot, nearest]
      exact if_pos enough
    · rw [abs_of_nonneg nonneg] at large
      exact absurd small large.not_gt

/-- The square of a root among doubles is at least a quarter of the number. -/
theorem sqrt_toDouble (large : Double.underflowBound < q) {d : Double} (nearest : toDouble q = .ok d) :
    ∃ m e, d.sqrt = .finite false m e ∧ q ≤ 4 * ((m : Rat) * 2 ^ e) ^ 2 := by
  have positive : 0 < q := Double.underflowBound_pos.trans large
  have size : (q.num.natAbs : Rat) / q.den = q := by rw [natAbs_div_den, abs_of_nonneg positive.le]
  have small : q < Double.overflowBound := by
    rcases toDouble_cases q with ⟨-, small⟩ | ⟨overflow, -⟩
    · rwa [abs_of_nonneg positive.le] at small
    · cases overflow.symm.trans nearest
  obtain ⟨s, m, e, rfl, least, found⟩ := toDouble_finite nearest
  have nonzero : m ≠ 0 := by
    obtain ⟨_, _, _, ⟨⟩, -, zero⟩ := toDouble_zero nearest
    rw [ne_eq, zero, abs_of_nonneg positive.le, not_le]
    exact large
  obtain ⟨low, high⟩ := Double.nearest_bounds (Int.natAbs_pos.2 (Rat.num_ne_zero.2 positive.ne')) q.den_pos found nonzero
  rw [size] at low high
  obtain ⟨r, f, taken, square⟩ := Double.sqrt_bounds (s := s) nonzero least (by linarith)
  exact ⟨r, f, taken, by linarith⟩

/-- A root is at least half of the exact one, less half a unit of the last place, unless the number is too small for a
double. -/
theorem le_sqrt_sq (large : Double.underflowBound < q) (taken : sqrt places q = .ok root) :
    q * (10 ^ places) ^ 2 ≤ (2 * (root * 10 ^ places) + 1) ^ 2 := by
  have scale : (0 : Rat) < 10 ^ places := by positivity
  rcases sqrt_cases taken with ⟨nonneg, square⟩ | ⟨d, nearest, rfl⟩
  · have scaled : 0 ≤ root * 10 ^ places := mul_nonneg nonneg scale.le
    rw [← square]
    nlinarith
  · obtain ⟨m, e, double, square⟩ := sqrt_toDouble large nearest
    have rounded := Double.le_roundedTo places false m e
    rw [← double] at rounded
    calc q * (10 ^ places) ^ 2 ≤ 4 * ((m : Rat) * 2 ^ e) ^ 2 * (10 ^ places) ^ 2 := by gcongr
      _ = (2 * ((m : Rat) * 2 ^ e * 10 ^ places)) ^ 2 := by ring
      _ ≤ (2 * (d.sqrt.roundedTo places * 10 ^ places) + 1) ^ 2 := pow_le_pow_left₀ (by positivity) rounded 2

end Reckoner.Rational
