import Reckoner.Datum.Places
import Reckoner.Proofs.Rational.Reading
/-!
# The nearest decimal

Of the multiples of the last place one is nearest to a number, or two are, and then the one farther from zero is taken.
Main statement: rounding gives that multiple, and the decimal text is its shortest one, so that it stands for the number
itself just if the number has few enough decimals. Both fail together, where a numeral of the multiple is too long.
-/

namespace Reckoner.Rational

variable {places : Nat} {q r s : Rat}

/-! ## Which number is nearest -/

/-- A multiple of the last place as near to `q` as any other, and no nearer to zero than another that is as near. -/
structure IsNearest (places : Nat) (q r : Rat) : Prop where
  multiple : ∃ k : Int, r = k / 10 ^ places
  nearest : ∀ k : Int, |q - r| ≤ |q - k / 10 ^ places|
  away : ∀ k : Int, |q - k / 10 ^ places| = |q - r| → |(k / 10 ^ places : Rat)| ≤ |r|

theorem IsNearest.eq_zero (h : IsNearest places 0 r) : r = 0 := by
  have small := h.nearest 0
  rw [Int.cast_zero, zero_div, sub_zero, abs_zero, zero_sub, abs_neg] at small
  exact abs_nonpos_iff.1 small

/-- There is one nearest number at most. -/
theorem IsNearest.unique (hr : IsNearest places q r) (hs : IsNearest places q s) : r = s := by
  obtain ⟨j, rfl⟩ := hr.multiple
  obtain ⟨k, rfl⟩ := hs.multiple
  have near := (hr.nearest k).antisymm (hs.nearest j)
  have size := (hs.away j near).antisymm (hr.away k near.symm)
  rcases abs_eq_abs.1 size with same | opposite
  · exact same
  -- Two opposite numbers are equally near only to zero, and nothing but zero is nearest to zero.
  · have zero : (k / 10 ^ places : Rat) = 0 := by
      rw [opposite, sub_neg_eq_add, abs_eq_abs] at near
      rcases near with same | middle
      · linarith
      · have q_zero : q = 0 := by linarith
        subst q_zero
        exact hs.eq_zero
    rw [opposite, zero, neg_zero]

/-- A whole number that is at most half a unit away, and at least as large where it is just half a unit, is as near as
any other, and larger than the others that are as near. -/
theorem near_of_bounds {x : Rat} {n : Nat} (low : x < n + 1 / 2) (high : n ≤ x + 1 / 2) (m : Nat) :
    |x - n| ≤ |x - m| ∧ (|x - m| = |x - n| → m ≤ n) := by
  have half : |x - n| ≤ 1 / 2 := abs_le.2 ⟨by linarith, by linarith⟩
  rcases le_or_gt m n with less | greater
  · refine ⟨?_, fun _ => less⟩
    rcases less.eq_or_lt with rfl | less
    · exact le_rfl
    · have unit : (m : Rat) + 1 ≤ n := by exact_mod_cast less
      have far : 1 / 2 ≤ x - m := by linarith
      exact half.trans (far.trans (le_abs_self _))
  · have unit : (n : Rat) + 1 ≤ m := by exact_mod_cast greater
    have far : 1 / 2 < m - x := by linarith
    have farther : 1 / 2 < |x - m| := far.trans_le (abs_sub_comm x m ▸ le_abs_self _)
    exact ⟨(half.trans_lt farther).le, fun same => absurd (same ▸ farther) half.not_gt⟩

/-- The distance of a number from multiples of the last place, in units of it. -/
theorem abs_sub_div_scale (places : Nat) (q x : Rat) :
    |q - x / 10 ^ places| = |q * 10 ^ places - x| / 10 ^ places := by
  have scale : (0 : Rat) < 10 ^ places := by positivity
  rw [← abs_eq_self.2 scale.le, ← abs_div, abs_eq_self.2 scale.le, sub_div, mul_div_cancel_right₀ _ scale.ne']

/-- The rounded number consists of the units with the sign of the number. -/
theorem exists_signedUnits (places : Nat) (q : Rat) : ∃ u : Int, |u| = (units places q : Int) ∧
    roundedTo places q = u / 10 ^ places ∧ |q * 10 ^ places - u| = |(|q| * 10 ^ places - units places q)| := by
  rcases lt_or_ge q 0 with negative | nonnegative
  · refine ⟨-(units places q : Int), by simp, by rw [roundedTo_of_neg negative]; push_cast; ring, ?_⟩
    rw [abs_eq_neg_self.2 negative.le, ← abs_neg]
    push_cast
    ring_nf
  · exact ⟨units places q, by simp, by rw [roundedTo_of_nonneg nonnegative]; rfl, by rw [abs_of_nonneg nonnegative]; rfl⟩

/-- Rounding gives the nearest multiple of the last place. -/
theorem isNearest_roundedTo (places : Nat) (q : Rat) : IsNearest places q (roundedTo places q) := by
  have scale : (0 : Rat) < 10 ^ places := by positivity
  obtain ⟨low, high⟩ := units_near places q
  have near := near_of_bounds low high
  obtain ⟨u, size, rounded, distance⟩ := exists_signedUnits places q
  have apart : ∀ k : Int, |(|q| * 10 ^ places - k.natAbs)| ≤ |q * 10 ^ places - k| := by
    intro k
    have sizes := abs_abs_sub_abs_le (q * 10 ^ places) k
    rwa [abs_mul, abs_eq_self.2 scale.le, ← Int.cast_abs, Int.abs_eq_natAbs, Int.cast_natCast] at sizes
  refine ⟨⟨u, rounded⟩, fun k => ?_, fun k same => ?_⟩
  · rw [rounded, abs_sub_div_scale, abs_sub_div_scale, distance]
    exact div_le_div_of_nonneg_right ((near k.natAbs).1.trans (apart k)) scale.le
  · rw [rounded, abs_sub_div_scale, abs_sub_div_scale, div_left_inj' scale.ne', distance] at same
    have tie := ((apart k).trans same.le).antisymm (near k.natAbs).1
    have less : |k| ≤ |u| := by
      rw [size, Int.abs_eq_natAbs]
      exact_mod_cast (near k.natAbs).2 tie
    rw [rounded, abs_div, abs_div]
    exact div_le_div_of_nonneg_right (by exact_mod_cast less) (abs_nonneg _)

theorem isNearest_iff : IsNearest places q r ↔ r = roundedTo places q :=
  ⟨fun h => h.unique (isNearest_roundedTo places q), fun h => h ▸ isNearest_roundedTo places q⟩

/-! ## Which numbers are decimals -/

/-- The numbers with few enough decimals are the multiples of the last place. -/
theorem fitsDecimal_iff : fitsDecimal places q = true ↔ ∃ k : Int, q = k / 10 ^ places := by
  constructor
  · intro fits
    rw [← roundedTo_of_fitsDecimal fits]
    exact (isNearest_roundedTo places q).multiple
  · rintro ⟨k, rfl⟩
    have divides := Rat.den_dvd k (10 ^ places : Nat)
    rw [fitsDecimal, beq_iff_eq]
    refine Nat.mod_eq_zero_of_dvd (Int.natCast_dvd_natCast.1 ?_)
    rw [← Rat.intCast_div_eq_divInt] at divides
    exact_mod_cast divides

theorem roundedTo_eq_self_iff : roundedTo places q = q ↔ fitsDecimal places q = true :=
  ⟨fun same => fitsDecimal_iff.2 (same ▸ (isNearest_roundedTo places q).multiple), roundedTo_of_fitsDecimal⟩

/-! ## Decimal texts -/

/-- A text without zeros after its last decimal and without a point that no decimal follows, with a minus sign in front
just if the number is negative; so it is not the text of a negative zero. -/
structure IsPlainText (t : Text) (r : Rat) : Prop where
  form : ∃ size, Unpadded size ∧ t = if r < 0 then '-' :: size else size
  positiveZero : t ≠ ['-', '0']

theorem isPlainText_roundedText (places : Nat) (q : Rat) : IsPlainText (roundedText places q) (roundedTo places q) := by
  have shown := shows_roundedTo places q
  obtain ⟨size, digits, unpadded, text⟩ := roundedText_eq places q
  refine ⟨⟨size, unpadded, text⟩, fun minusZero => ?_⟩
  -- The text reads back as zero, which is not negative, and so its first character would be a digit.
  have zero : roundedTo places q = 0 := by
    have read := shown.parse
    rw [minusZero] at read
    exact (Except.ok.inj read).symm
  obtain ⟨c, rest, rfl, digit⟩ := digits.head_isDigit
  rw [minusZero, zero, if_neg (lt_irrefl 0)] at text
  cases text
  exact absurd digit (by decide)

theorem natural_integer (usual places : Nat) : Datum.natural? usual (.integer places) = some places := by
  simp [Datum.natural?]

theorem decimalText_integer (usual places : Nat) (q : Rat) :
    Datum.decimalText usual (.integer places) q = decimalText places q := by
  rw [Datum.decimalText, natural_integer]

theorem rounded_integer (places : Nat) (q : Rat) :
    Datum.rounded (.integer places) (.rational q) = (round places q).map Datum.rational := by
  show (Datum.roundRational (.integer places) q).map Datum.rational = _
  have kept : (if (Datum.integer places).isNothing then .integer 0 else Datum.integer places) = .integer places :=
    ite_eq_right_iff.2 fun none => by rw [Int.natCast_eq_zero.1 (beq_iff_eq.1 none), Nat.cast_zero]
  simp only [Datum.roundRational, kept, natural_integer]

/-- The decimal text of a number to so many places stands for the nearest multiple of the last place, which the number is
rounded to as well; it stands for the number itself just if the number has few enough decimals. Neither can be had where
that multiple has a numeral too long to be written, which takes either more places than a numeral has digits or a huge
number. -/
theorem decimalText_nearest (usual places : Nat) (q : Rat) :
    ∃ t r short, IsPlainText t r ∧ parse t = .ok r ∧ (∀ s, IsNearest places q s ↔ s = r) ∧
      Datum.decimalText usual (.integer places) q = .written short t ∧
        Datum.rounded (.integer places) (.rational q) = .written short (.rational r) ∧
          (short = true ↔ ShortNumerals places r) ∧
            (places ≤ Text.longestNumeral → |q| + 1 ≤ 10 ^ Text.longestNumeral → short = true) ∧
              ∃ fits, Datum.fitsDecimal usual (.integer places) q = .ok fits ∧ (r = q ↔ fits = true) := by
  have rounded := rounded_integer places q
  rw [round, Outcome.map_written] at rounded
  have fits : Datum.fitsDecimal usual (.integer places) q = .ok (fitsDecimal places q) := by
    rw [Datum.fitsDecimal, natural_integer]
  exact ⟨_, _, _, isPlainText_roundedText places q, (shows_roundedTo places q).parse, fun s => isNearest_iff,
    decimalText_integer usual places q, rounded, isWritableTo_iff, isWritableTo_of_le, _, fits, roundedTo_eq_self_iff⟩

theorem decimalText_nearest_half :
    1 ≤ Text.longestNumeral ∧ |(1 / 2 : Rat)| + 1 ≤ 10 ^ Text.longestNumeral ∧
      ∃ t r, IsPlainText t r ∧ parse t = .ok r ∧ (∀ s, IsNearest 1 (1 / 2) s ↔ s = r) ∧
        Datum.decimalText 10 (.integer 1) (1 / 2) = .ok t ∧
          Datum.rounded (.integer 1) (.rational (1 / 2)) = .ok (.rational r) := by
  have few : 1 ≤ Text.longestNumeral := by decide +kernel
  have size : |(1 / 2 : Rat)| + 1 ≤ 10 ^ Text.longestNumeral := by
    calc |(1 / 2 : Rat)| + 1 ≤ 10 ^ 1 := by norm_num
      _ ≤ 10 ^ Text.longestNumeral := pow_le_pow_right₀ (by norm_num) few
  obtain ⟨t, r, short, plain, read, nearest, text, rounded, -, holds, -⟩ := decimalText_nearest 10 1 (1 / 2)
  obtain rfl := holds few size
  exact ⟨few, size, t, r, plain, read, nearest, text, rounded⟩

/-- A half is a decimal with one place, but it has no decimal text with five thousand places, and is not rounded to them. -/
theorem half_unwritable :
    Datum.fitsDecimal 10 (.integer 5000) (1 / 2) = .ok true ∧
      Datum.decimalText 10 (.integer 5000) (1 / 2) = .error .meaningless ∧
        Datum.rounded (.integer 5000) (.rational (1 / 2)) = .error .meaningless := by
  have failed : round 5000 (1 / 2) = .error .meaningless := by decide +kernel
  exact ⟨by decide +kernel, by decide +kernel, (rounded_integer 5000 (1 / 2)).trans (by rw [failed]; rfl)⟩

end Reckoner.Rational
