import Reckoner.Double.Arithmetic
import Reckoner.Proofs.Double.Overflow
/-!
# Numbers too small for a double

`Rational.toDouble_zero`: the nearest double of a rational number is zero exactly if the absolute value of the number is
at most `1 / 2 ^ 1075`, half of the least positive double: the tie goes to zero, which is even.

The length of a pair of doubles is zero only if both are, since squares are added before anything is rounded; so lengths
tell numbers apart from zero wherever their parts do.
-/

namespace Reckoner

namespace Double

variable {n d : Nat}

/-! ## Rounding to zero -/

/-- The greatest number that is rounded to zero. -/
def underflowBound : Rat := 1 / 2 ^ 1075

theorem underflowBound_pos : 0 < underflowBound := by
  rw [underflowBound]
  positivity

theorem underflowBound_lt : underflowBound < 2 ^ (-1074 : Int) := by
  rw [underflowBound, zpow_neg, zpow_ofNat, ← one_div]
  exact one_div_lt_one_div_of_lt (by positivity) (pow_lt_pow_right₀ one_lt_two (Nat.lt_succ_self 1074))

theorem roundHalfEven_eq_zero {a b : Nat} (hb : 0 < b) : roundHalfEven a b = 0 ↔ 2 * a ≤ b := by
  simp only [roundHalfEven]
  rcases Nat.lt_or_ge a b with less | greater
  · rw [Nat.div_eq_of_lt less, Nat.mod_eq_of_lt less]
    split
    · omega
    · split <;> omega
  · have quotient : 1 ≤ a / b := (Nat.one_le_div_iff hb).2 greater
    split
    · omega
    · split <;> omega

theorem isZero_finite {negative : Bool} {m : Nat} {e : Int} : (finite negative m e).isZero = true ↔ m = 0 := by
  cases m <;> simp [isZero]

/-- A number other than zero is rounded to zero by its significand. -/
theorem nearest_isZero_iff (negative : Bool) (hn : 0 < n) : (nearest negative n d).isZero = true ↔ exponentFor n d ≤ 971 ∧
    roundHalfEven (shifted n d (-exponentFor n d)).1 (shifted n d (-exponentFor n d)).2 = 0 := by
  have least : leastNormal ≠ 0 := by decide
  simp only [nearest, if_neg hn.ne']
  split
  next carried =>
    have nonzero : 2 * leastNormal ≠ 0 := Nat.mul_ne_zero two_ne_zero least
    rw [carried]
    split <;> simp [isZero, least, nonzero]
  next =>
    split
    next large => simp [isZero, large]
    next small => simp [isZero_finite, not_lt.1 small]

theorem nearest_isZero (negative : Bool) (hd : 0 < d) :
    (nearest negative n d).isZero = true ↔ (n : ℚ) / d ≤ underflowBound := by
  rcases Nat.eq_zero_or_pos n with rfl | hn
  · rw [Nat.cast_zero, zero_div]
    exact iff_of_true rfl underflowBound_pos.le
  have positive : (0 : ℚ) < n / d := by
    have : (0 : ℚ) < n := by exact_mod_cast hn
    have : (0 : ℚ) < d := by exact_mod_cast hd
    positivity
  have low : (2 : ℚ) ^ Int.log 2 ((n : ℚ) / d) ≤ n / d := Int.zpow_log_le_self (by decide) positive
  have bpos : (0 : ℚ) < (shifted n d (-exponentFor n d)).2 := by exact_mod_cast shifted_pos hd _
  have value := shifted_value n d (-exponentFor n d)
  have half : 2 * (shifted n d (-exponentFor n d)).1 ≤ (shifted n d (-exponentFor n d)).2 ↔
      (n : ℚ) / d * 2 ^ (-exponentFor n d) ≤ 1 / 2 := by
    rw [← value, div_le_div_iff₀ bpos two_pos, ← Nat.cast_le (α := ℚ)]
    push_cast
    rw [mul_comm, one_mul]
  rw [nearest_isZero_iff negative hn, roundHalfEven_eq_zero (shifted_pos hd _), half, exponentFor_eq hn hd]
  set l := Int.log 2 ((n : ℚ) / d)
  rcases le_or_gt (l - 52) (-1074) with small | large
  · -- The units are the least ones.
    have bound : underflowBound = 1 / 2 / 2 ^ 1074 := by
      rw [underflowBound, pow_succ', div_div]
    rw [max_eq_right small, neg_neg, zpow_ofNat, bound, le_div_iff₀ (c := (2 : ℚ) ^ 1074) (by positivity)]
    exact and_iff_right (by norm_num)
  · -- The quotient has all its digits before the point.
    have above : ¬(n : ℚ) / d ≤ underflowBound := by
      rw [not_le]
      calc underflowBound < 2 ^ (-1074 : Int) := underflowBound_lt
        _ ≤ 2 ^ l := zpow_le_zpow_right₀ (by norm_num) (by omega)
        _ ≤ (n : ℚ) / d := low
    refine iff_of_false (fun rounded => ?_) above
    rw [max_eq_left large.le] at rounded
    have many : (1 : ℚ) ≤ n / d * 2 ^ (-(l - 52)) :=
      calc (1 : ℚ) ≤ 2 ^ (52 : Int) := one_le_zpow₀ (by norm_num) (by decide)
        _ = 2 ^ l * 2 ^ (-(l - 52)) := by rw [← zpow_add₀ two_ne_zero]; congr 1; ring
        _ ≤ n / d * 2 ^ (-(l - 52)) := by gcongr
    exact absurd (many.trans rounded.2) (by norm_num)

/-- A nearest double is infinite or finite with the given sign, and its exponent is not below the least one. -/
theorem nearest_cases (negative : Bool) (n d : Nat) :
    nearest negative n d = .infinite negative ∨ ∃ m e, nearest negative n d = .finite negative m e ∧ -1074 ≤ e := by
  have least : -1074 ≤ exponentFor n d := le_max_right _ _
  simp only [nearest]
  split
  · exact .inr ⟨_, _, rfl, le_rfl⟩
  · split <;> split
    · exact .inl rfl
    · exact .inr ⟨_, _, rfl, by omega⟩
    · exact .inl rfl
    · exact .inr ⟨_, _, rfl, by omega⟩

/-! ## Lengths -/

/-- Whether a double is what a length can be. -/
def IsSize (d : Double) : Prop := d = .infinite false ∨ ∃ m e, d = .finite false m e

theorem powerOfTwo_pos (k : Int) : 0 < powerOfTwo k := by
  unfold powerOfTwo
  split <;> positivity

theorem lt_finite {m n : Nat} {e f : Int} :
    lt (.finite false m e) (.finite false n f) = decide ((m : ℚ) * powerOfTwo e < n * powerOfTwo f) := rfl

/-- No length is less than zero. -/
theorem IsSize.not_lt {a b : Double} (ha : a.IsSize) (hb : b.IsSize) (zero : b.isZero = true) : a.lt b = false := by
  obtain rfl | ⟨n, f, rfl⟩ := hb
  · cases zero
  obtain rfl : n = 0 := isZero_finite.1 zero
  obtain rfl | ⟨m, e, rfl⟩ := ha
  · rfl
  · have nonnegative : 0 ≤ (m : ℚ) * powerOfTwo e := mul_nonneg (Nat.cast_nonneg m) (powerOfTwo_pos e).le
    simp [lt_finite, nonnegative]

/-- The integer root of a large multiple, with the digit that records what is left. -/
theorem integerRoot_bounds {scaled : Nat} (large : 2 ^ 110 ≤ scaled) {left : Nat} (digit : left ≤ 1) :
    27 * scaled ≤ 8 * (2 * scaled.sqrt + left) ^ 2 ∧ (2 * scaled.sqrt + left) ^ 2 ≤ 12 * scaled := by
  have low := Nat.sqrt_le' scaled
  have high := Nat.lt_succ_sqrt' scaled
  have digits : 2 ^ 55 ≤ scaled.sqrt := Nat.le_sqrt.2 large
  generalize scaled.sqrt = root at low high digits ⊢
  constructor
  · have below : 27 * (root + 1) ^ 2 ≤ 32 * root ^ 2 := by nlinarith
    calc 27 * scaled ≤ 27 * (root + 1) ^ 2 := by gcongr
      _ ≤ 8 * (2 * root) ^ 2 := by linarith
      _ ≤ 8 * (2 * root + left) ^ 2 := by gcongr; omega
  · calc (2 * root + left) ^ 2 ≤ (2 * root + 1) ^ 2 := by gcongr
      _ ≤ 12 * root ^ 2 := by nlinarith
      _ ≤ 12 * scaled := by gcongr

/-- A root among doubles is the double nearest to a quotient whose square is close to the number. -/
theorem nearestRoot_eq (hn : 0 < n) (k : Int) : ∃ u v, 0 < v ∧ nearestRoot n k = nearest false u v ∧
    27 * ((n : ℚ) * 2 ^ k) ≤ 32 * ((u : ℚ) / v) ^ 2 ∧ ((u : ℚ) / v) ^ 2 ≤ 3 * (n * 2 ^ k) := by
  simp only [nearestRoot]
  set shift : Nat := 110 + if (k - 110) % 2 = 0 then 0 else 1 with shift_eq
  obtain ⟨j, even⟩ : ∃ j, k - shift = 2 * j := ⟨(k - shift) / 2, by split_ifs at shift_eq <;> omega⟩
  have exponent : (k - shift) / 2 - 1 = j - 1 := by omega
  rw [exponent]
  refine ⟨_, _, shifted_pos one_pos _, rfl, ?_⟩
  rw [shifted_value, Nat.cast_one, div_one]
  have large : 2 ^ 110 ≤ n * Nat.pow 2 shift :=
    (Nat.pow_le_pow_right two_pos (by omega)).trans (Nat.le_mul_of_pos_left _ hn)
  have digit : (if (n * Nat.pow 2 shift).sqrt * (n * Nat.pow 2 shift).sqrt < n * Nat.pow 2 shift then 1 else 0) ≤ 1 := by
    split <;> omega
  obtain ⟨low, high⟩ := integerRoot_bounds large digit
  generalize 2 * (n * Nat.pow 2 shift).sqrt + _ = w at low high ⊢
  have number : (n : ℚ) * 2 ^ k = (n * Nat.pow 2 shift : Nat) * (2 ^ j) ^ 2 := by
    have scale : ((Nat.pow 2 shift : Nat) : ℚ) = 2 ^ shift := Nat.cast_pow 2 shift
    have sum : k = shift + 2 * j := by omega
    rw [sum, zpow_add₀ two_ne_zero, zpow_natCast, mul_comm 2 j, zpow_mul, Nat.cast_mul, scale, mul_assoc]
    rfl
  have root : (w * 2 ^ (j - 1) : ℚ) ^ 2 = w ^ 2 / 4 * (2 ^ j) ^ 2 := by
    rw [zpow_sub_one₀ two_ne_zero]
    ring
  generalize n * Nat.pow 2 shift = scaled at low high number
  rw [number, root]
  have low' : (27 * scaled : ℚ) ≤ 8 * w ^ 2 := by exact_mod_cast low
  have high' : (w ^ 2 : ℚ) ≤ 12 * scaled := by exact_mod_cast high
  constructor
  · calc 27 * (scaled * (2 ^ j) ^ 2 : ℚ) = 27 * scaled * (2 ^ j) ^ 2 := by ring
      _ ≤ 8 * w ^ 2 * (2 ^ j) ^ 2 := by gcongr
      _ = 32 * (w ^ 2 / 4 * (2 ^ j) ^ 2) := by ring
  · calc (w ^ 2 / 4 * (2 ^ j) ^ 2 : ℚ) ≤ 12 * scaled / 4 * (2 ^ j) ^ 2 := by gcongr
      _ = 3 * (scaled * (2 ^ j) ^ 2) := by ring

/-- The root of a number that is not below the square of the least positive double is not zero. -/
theorem nearestRoot_positive (hn : 0 < n) {k : Int} (hk : -2148 ≤ k) :
    (nearestRoot n k).IsSize ∧ (nearestRoot n k).isZero = false := by
  obtain ⟨u, v, hv, rounded, low, -⟩ := nearestRoot_eq hn k
  rw [rounded]
  constructor
  · rcases nearest_cases false u v with infinite | ⟨m, e, finite, -⟩
    · exact .inl infinite
    · exact .inr ⟨m, e, finite⟩
  · rw [Bool.eq_false_iff, ne_eq, nearest_isZero false hv]
    intro small
    have squared : ((u : ℚ) / v) ^ 2 ≤ underflowBound ^ 2 := pow_le_pow_left₀ (by positivity) small 2
    have one : (1 : ℚ) ≤ n := by exact_mod_cast hn
    have number : (2 : ℚ) ^ (-2148 : Int) ≤ n * 2 ^ k :=
      calc (2 : ℚ) ^ (-2148 : Int) ≤ 2 ^ k := zpow_le_zpow_right₀ (by norm_num) hk
        _ ≤ n * 2 ^ k := le_mul_of_one_le_left (by positivity) one
    have bound : 32 * underflowBound ^ 2 < 27 * 2 ^ (-2148 : Int) := by
      have : underflowBound ^ 2 = 2 ^ (-2148 : Int) / 4 := by
        have doubled : (2 : ℚ) ^ (1075 * 2) = 2 ^ 2148 * 4 := pow_add 2 2148 2 |>.trans (by norm_num)
        rw [underflowBound, div_pow, one_pow, ← pow_mul, doubled, zpow_neg, zpow_ofNat, one_div, mul_inv, div_eq_mul_inv]
      rw [this]
      have unit : (0 : ℚ) < 2 ^ (-2148 : Int) := by positivity
      linarith
    linarith

end Double

/-! ## Rational numbers -/

namespace Rational

variable {q : Rat} {d : Double}

/-- A number that has a nearest double: it is finite, and its exponent is not below the least one. -/
theorem toDouble_finite (h : toDouble q = .ok d) :
    ∃ s m e, d = .finite s m e ∧ -1074 ≤ e ∧ Double.nearest (decide (q < 0)) q.num.natAbs q.den = d := by
  rw [toDouble, Double.ofRat?, Double.ofRat] at h
  rcases Double.nearest_cases (decide (q < 0)) q.num.natAbs q.den with infinite | ⟨m, e, finite, least⟩
  · rw [infinite] at h
    cases h
  · rw [finite] at h ⊢
    cases h
    exact ⟨_, m, e, rfl, least, rfl⟩

/-- The nearest double is zero exactly if the number is too small. -/
theorem toDouble_zero (h : toDouble q = .ok d) :
    ∃ s m e, d = .finite s m e ∧ -1074 ≤ e ∧ (m = 0 ↔ |q| ≤ Double.underflowBound) := by
  obtain ⟨s, m, e, rfl, least, nearest⟩ := toDouble_finite h
  have zero := Double.nearest_isZero (n := q.num.natAbs) (decide (q < 0)) q.den_pos
  rw [natAbs_div_den, nearest] at zero
  exact ⟨s, m, e, rfl, least, Double.isZero_finite.symm.trans zero⟩

end Rational

end Reckoner
