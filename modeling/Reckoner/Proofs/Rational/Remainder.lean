import Mathlib.Algebra.Order.Field.Rat
import Mathlib.Data.Rat.Floor
import Mathlib.Data.Sign.Basic
import Mathlib.Tactic.Linarith
import Mathlib.Tactic.Ring
import Reckoner.Rational.Basic
/-!
# Remainders

What is left of a number after taking away a divisor as often as it goes into the number, towards zero. Main statement:
this is the only number that differs from the first one by a multiple of the divisor, is smaller than the divisor, and
has the sign of the first one unless it is zero.
-/

namespace Reckoner.Rational

variable {a b r s x : Rat}

/-! ## Integer parts -/

theorem truncate_neg (q : Rat) : truncate (-q) = -truncate q := by
  rw [truncate, truncate, Rat.neg_num, Rat.neg_den, Int.neg_tdiv]

theorem truncate_of_nonneg (h : 0 ≤ x) : truncate x = ⌊x⌋ := by
  rw [truncate, Int.tdiv_eq_ediv_of_nonneg (Rat.num_nonneg.2 h)]
  exact (Rat.floor_def x).symm

/-- What stands after the point is less than one, and has the sign of the number unless it is zero. -/
theorem fraction_spec (x : Rat) :
    |x - truncate x| < 1 ∧ (x - truncate x = 0 ∨ SignType.sign (x - truncate x) = SignType.sign x) := by
  have nonneg : ∀ y : Rat, 0 ≤ y →
      |y - truncate y| < 1 ∧ (y - truncate y = 0 ∨ SignType.sign (y - truncate y) = SignType.sign y) := by
    intro y h
    rw [truncate_of_nonneg h, Int.self_sub_floor, Int.abs_fract]
    refine ⟨Int.fract_lt_one y, (Int.fract_nonneg y).eq_or_lt.imp Eq.symm fun positive => ?_⟩
    have some : 0 < y := lt_of_le_of_ne h fun zero => by simp [← zero] at positive
    rw [sign_pos positive, sign_pos some]
  rcases le_total 0 x with h | h
  · exact nonneg x h
  · have opposite : x - truncate x = -(-x - truncate (-x)) := by
      rw [truncate_neg]
      push_cast
      ring
    obtain ⟨small, sign⟩ := nonneg (-x) (neg_nonneg.2 h)
    rw [opposite, abs_neg, neg_eq_zero, Left.sign_neg, neg_eq_iff_eq_neg, ← Left.sign_neg]
    exact ⟨small, sign⟩

/-! ## What is left -/

/-- A multiple of `b` away from `a`, smaller than `b`, and with the sign of `a` unless it is zero. -/
structure IsRemainder (a b r : Rat) : Prop where
  multiple : ∃ k : Int, a - r = k * b
  small : |r| < |b|
  sign : r = 0 ∨ SignType.sign r = SignType.sign a

theorem IsRemainder.nonneg (h : IsRemainder a b r) (positive : 0 ≤ a) : 0 ≤ r := by
  rcases h.sign with zero | same
  · exact zero.ge
  · rwa [← sign_nonneg_iff, same, sign_nonneg_iff]

theorem IsRemainder.nonpos (h : IsRemainder a b r) (negative : a ≤ 0) : r ≤ 0 := by
  rcases h.sign with zero | same
  · exact zero.le
  · rwa [← sign_nonpos_iff, same, sign_nonpos_iff]

/-- There is one remainder at most. -/
theorem IsRemainder.unique (hr : IsRemainder a b r) (hs : IsRemainder a b s) : r = s := by
  obtain ⟨j, left⟩ := hr.multiple
  obtain ⟨k, right⟩ := hs.multiple
  have apart : r - s = (k - j : Int) * b := by
    push_cast
    linarith
  -- Both lie on one side of zero, so that they are less than the divisor apart.
  have near : |r - s| < |b| := by
    rcases le_total 0 a with positive | negative
    · exact abs_sub_lt_of_nonneg_of_lt (hr.nonneg positive) ((le_abs_self r).trans_lt hr.small) (hs.nonneg positive)
        ((le_abs_self s).trans_lt hs.small)
    · rw [abs_sub_comm, ← neg_sub_neg]
      exact abs_sub_lt_of_nonneg_of_lt (neg_nonneg.2 (hr.nonpos negative)) ((neg_le_abs r).trans_lt hr.small)
        (neg_nonneg.2 (hs.nonpos negative)) ((neg_le_abs s).trans_lt hs.small)
  have none : k - j = 0 := by
    by_contra some
    have far : (1 : Rat) ≤ |((k - j : Int) : Rat)| := by exact_mod_cast Int.one_le_abs some
    rw [apart, abs_mul] at near
    exact absurd near (le_mul_of_one_le_left (abs_nonneg b) far).not_gt
  rwa [none, Int.cast_zero, zero_mul, sub_eq_zero] at apart

/-- Taking away the divisor as often as it fits leaves the remainder, and nothing else does. -/
theorem modulo_eq_ok_iff (h : b ≠ 0) : modulo a b = .ok r ↔ IsRemainder a b r := by
  have left : IsRemainder a b (a - b * truncate (a / b)) := by
    have part : a - b * truncate (a / b) = b * (a / b - truncate (a / b)) := by rw [mul_sub, mul_div_cancel₀ a h]
    have whole : a = b * (a / b) := (mul_div_cancel₀ a h).symm
    obtain ⟨small, sign⟩ := fraction_spec (a / b)
    refine ⟨⟨truncate (a / b), by ring⟩, ?_, ?_⟩
    · rw [part, abs_mul]
      exact mul_lt_of_lt_one_right (abs_pos.2 h) small
    · rw [part]
      refine sign.imp (fun zero => by rw [zero, mul_zero]) fun same => ?_
      conv_rhs => rw [whole, sign_mul, ← same]
      exact sign_mul _ _
  rw [modulo, if_neg h, Except.ok.injEq]
  exact ⟨fun same => same ▸ left, left.unique⟩

/-- A remainder has the sign of what is divided. -/
theorem modulo_neg (h : modulo a b = .ok r) : modulo (-a) b = .ok (-r) := by
  unfold modulo at h ⊢
  split at h
  · cases h
  next nonzero =>
    rw [if_neg nonzero]
    cases h
    rw [neg_div, truncate_neg]
    push_cast
    congr 1
    ring

end Reckoner.Rational
