import Reckoner.Proofs.Double.Underflow
import Reckoner.Double.Text
/-!
# How much of a root doubles keep

`Double.sqrt_bounds`: the square of a root is not much less than the double that it is taken of. Rounding to a double is
off by a factor of at most two, which is the case next to the least positive double.
-/

namespace Reckoner

namespace Double

/-! ## One rounding -/

/-- The quotient is rounded down where at most a half is left, and up where at least a half is. -/
theorem roundHalfEven_cases (a b : Nat) :
    roundHalfEven a b = a / b ∧ 2 * (a % b) ≤ b ∨ roundHalfEven a b = a / b + 1 ∧ b ≤ 2 * (a % b) := by
  simp only [roundHalfEven]
  split_ifs <;> omega

/-- Rounding to a natural number loses at most a half. -/
theorem le_roundHalfEven (a b : Nat) (hb : 0 < b) : 2 * a ≤ (2 * roundHalfEven a b + 1) * b := by
  have split : b * (a / b) + a % b = a := Nat.div_add_mod a b
  have left : a % b < b := Nat.mod_lt a hb
  rcases roundHalfEven_cases a b with ⟨down, half⟩ | ⟨up, -⟩
  · rw [down]
    linarith
  · rw [up]
    linarith

/-- Rounding to a natural number at most doubles. -/
theorem roundHalfEven_le {a b : Nat} : roundHalfEven a b * b ≤ 2 * a := by
  have split : b * (a / b) + a % b = a := Nat.div_add_mod a b
  rcases roundHalfEven_cases a b with ⟨down, -⟩ | ⟨up, half⟩
  · rw [down]
    linarith [Nat.zero_le (b * (a / b)), Nat.zero_le (a % b)]
  · rw [up]
    linarith [Nat.zero_le (b * (a / b))]

/-- A nearest double has the value of its rounded significand, also where the significand is carried. -/
theorem nearest_value {negative s : Bool} {n d m : Nat} {e : Int} (hn : 0 < n)
    (found : nearest negative n d = .finite s m e) :
    (m : ℚ) * 2 ^ e = roundHalfEven (shifted n d (-exponentFor n d)).1 (shifted n d (-exponentFor n d)).2 *
      2 ^ exponentFor n d := by
  simp only [nearest, if_neg hn.ne'] at found
  split at found
  next carried =>
    split at found
    · cases found
    · cases found
      rw [carried, zpow_add_one₀ two_ne_zero]
      push_cast
      ring
  next =>
    split at found
    · cases found
    · cases found
      rfl

/-- A double nearest to a quotient, and other than zero, is neither much less nor much more. -/
theorem nearest_bounds {negative s : Bool} {n d m : Nat} {e : Int} (hn : 0 < n) (hd : 0 < d)
    (found : nearest negative n d = .finite s m e) (nonzero : m ≠ 0) :
    2 * ((n : ℚ) / d) ≤ 3 * (m * 2 ^ e) ∧ (m : ℚ) * 2 ^ e ≤ 2 * (n / d) := by
  have unit : (0 : ℚ) < 2 ^ exponentFor n d := by positivity
  have bpos := shifted_pos (n := n) hd (-exponentFor n d)
  have scaled := shifted_value n d (-exponentFor n d)
  have value := nearest_value hn found
  generalize shifted n d (-exponentFor n d) = t at bpos scaled value
  have bpos' : (0 : ℚ) < t.2 := by exact_mod_cast bpos
  have quotient : (n : ℚ) / d = t.1 / t.2 * 2 ^ exponentFor n d := by
    rw [scaled, zpow_neg, inv_mul_cancel_right₀ unit.ne']
  have positive : 1 ≤ roundHalfEven t.1 t.2 := by
    refine Nat.one_le_iff_ne_zero.2 fun zero => nonzero ?_
    rw [zero, Nat.cast_zero, zero_mul, mul_eq_zero, or_iff_left (by positivity)] at value
    exact_mod_cast value
  have low : 2 * ((t.1 : ℚ) / t.2) ≤ 3 * roundHalfEven t.1 t.2 := by
    rw [← mul_div_assoc, div_le_iff₀ bpos']
    have : 2 * t.1 ≤ 3 * roundHalfEven t.1 t.2 * t.2 :=
      (le_roundHalfEven t.1 t.2 bpos).trans (Nat.mul_le_mul_right _ (by omega))
    exact_mod_cast this
  have high : (roundHalfEven t.1 t.2 : ℚ) ≤ 2 * (t.1 / t.2) := by
    rw [← mul_div_assoc, le_div_iff₀ bpos']
    exact_mod_cast roundHalfEven_le
  rw [value, quotient, ← mul_assoc, ← mul_assoc]
  exact ⟨by gcongr, by gcongr⟩

/-! ## Roots -/

/-- The root of a double that is neither zero nor too large is neither, and its square is not much less than the double. -/
theorem sqrt_bounds {s : Bool} {m : Nat} {k : Int} (nonzero : m ≠ 0) (least : -1074 ≤ k)
    (small : (m : ℚ) * 2 ^ k < 2 * overflowBound) : ∃ r e, sqrt (.finite s m k) = .finite false r e ∧
      3 * ((m : ℚ) * 2 ^ k) ≤ 8 * (r * 2 ^ e) ^ 2 := by
  have taken : sqrt (.finite s m k) = nearestRoot m k := by
    cases m with
    | zero => exact absurd rfl nonzero
    | succ m => rfl
  have positive : 0 < m := Nat.pos_of_ne_zero nonzero
  obtain ⟨u, v, hv, rounded, low, high⟩ := nearestRoot_eq positive k
  have number : (0 : ℚ) < m * 2 ^ k := mul_pos (by exact_mod_cast positive) (by positivity)
  have quotient : (0 : ℚ) ≤ u / v := by positivity
  have hu : 0 < u := by
    refine Nat.pos_of_ne_zero fun zero => ?_
    rw [zero, Nat.cast_zero, zero_div] at low
    linarith
  have finite : ¬overflowBound ≤ (u : ℚ) / v := by
    intro large
    have wide : 6 ≤ overflowBound :=
      calc (6 : ℚ) ≤ 2 ^ (3 : Int) := by norm_num
        _ ≤ 2 ^ (1023 : Int) := zpow_le_zpow_right₀ (by norm_num) (by decide)
        _ ≤ overflowBound := overflowBound_between.1
    have squared : overflowBound ^ 2 ≤ ((u : ℚ) / v) ^ 2 := pow_le_pow_left₀ (by linarith) large 2
    nlinarith
  have nonzero' := (nearestRoot_positive positive (k := k) (by omega)).2
  rw [rounded] at nonzero'
  rcases nearest_cases false u v with infinite | ⟨r, e, found, -⟩
  · exact absurd ((nearest_eq_infinite false hu hv).1 infinite) finite
  · rw [found, Bool.eq_false_iff, ne_eq, isZero_finite] at nonzero'
    have near := (nearest_bounds hu hv found nonzero').1
    refine ⟨r, e, by rw [taken, rounded, found], ?_⟩
    have squared : (2 * ((u : ℚ) / v)) ^ 2 ≤ (3 * (r * 2 ^ e)) ^ 2 := pow_le_pow_left₀ (by positivity) near 2
    linarith

theorem roundedTo_nonneg (places : Nat) (d : Double) : 0 ≤ d.roundedTo places := by
  unfold roundedTo
  split
  · rw [Rat.mkRat_eq_div]
    positivity
  · rfl

/-- Rounding to decimals loses at most half a unit of the last place. -/
theorem le_roundedTo (places : Nat) (s : Bool) (m : Nat) (e : Int) :
    2 * ((m : ℚ) * 2 ^ e * 10 ^ places) ≤ 2 * (roundedTo places (.finite s m e) * 10 ^ places) + 1 := by
  have scale : (10 : ℚ) ^ places ≠ 0 := by positivity
  have bpos := shifted_pos (n := m * Nat.pow 10 places) one_pos e
  have value := shifted_value (m * Nat.pow 10 places) 1 e
  have units : roundedTo places (.finite s m e) * 10 ^ places =
      roundHalfEven (shifted (m * Nat.pow 10 places) 1 e).1 (shifted (m * Nat.pow 10 places) 1 e).2 := by
    rw [roundedTo, Rat.mkRat_eq_div, Nat.pow_eq]
    push_cast
    exact div_mul_cancel₀ _ scale
  generalize shifted (m * Nat.pow 10 places) 1 e = t at bpos value units
  have bpos' : (0 : ℚ) < t.2 := by exact_mod_cast bpos
  have exactly : (m : ℚ) * 2 ^ e * 10 ^ places = t.1 / t.2 := by
    rw [value, Nat.cast_one, div_one, Nat.pow_eq]
    push_cast
    ring
  have near : (2 * t.1 : ℚ) ≤ (2 * roundHalfEven t.1 t.2 + 1) * t.2 := by exact_mod_cast le_roundHalfEven t.1 t.2 bpos
  rw [units, exactly, ← mul_div_assoc, div_le_iff₀ bpos']
  exact near

end Double

end Reckoner
