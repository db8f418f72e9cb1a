import Reckoner.Proofs.Poly.Roots
import Reckoner.Proofs.Rational.Rounding
/-!
# How many roots a quadratic equation has

`Poly.solve_counts`: a quadratic equation with rational coefficients has one, two real or two conjugate solutions by the
sign of its discriminant, if they are found: where the discriminant is no square, it must have a nearest double, and the
solutions short numerals. Where the root of the discriminant is rounded, the two solutions are rounded as well, and so
they may coincide, or lose their imaginary parts. They do not if the rounded root is at least `|a|` units of the last
place, where `a` is the leading coefficient, and this is so where the discriminant is at least `(2 * |a| + 1) ^ 2` squares
of such units.
-/

namespace Reckoner

namespace Poly

variable {a b c root : Rat} {places : Nat} {p : Poly} {roots : List Number}

/-! ## Rounded roots -/

/-- Whether the solutions are found: the root of the discriminant is exact, or there is a nearest double to take the root
of, and the numerals of what is rounded are short. -/
def Rooted (places : Nat) (a b c : Rat) : Prop := SquareDiscriminant a b c ∨
  Rational.abs (b * b - 4 * a * c) < Double.overflowBound ∧ places ≤ Rational.greatestPlaces ∧
    ∀ root, Rational.sqrt places (Rational.abs (b * b - 4 * a * c)) = .ok root →
      ∀ q ∈ quantities a b c root, Rational.ShortNumerals places (Rational.roundedTo places q)

/-- Numerals are short if there are no more places than a numeral has digits and the solutions are not huge. -/
theorem rooted_of_few (small : Rational.abs (b * b - 4 * a * c) < Double.overflowBound)
    (few : places ≤ Text.longestNumeral)
    (near : ∀ root, Rational.sqrt places (Rational.abs (b * b - 4 * a * c)) = .ok root →
      ∀ q ∈ quantities a b c root, |q| + 1 ≤ 10 ^ Text.longestNumeral) : Rooted places a b c := by
  have enough : Text.longestNumeral ≤ Rational.greatestPlaces := by decide +kernel
  exact .inr ⟨small, few.trans enough, fun root taken q mem =>
    Rational.isWritableTo_iff.1 (Rational.isWritableTo_of_le few (near root taken q mem))⟩

/-- Whether rounding keeps the solutions apart: the root of the discriminant is exact, or it is rounded to at least `|a|`
units of the last place. -/
def Separated (places : Nat) (a b c : Rat) : Prop := SquareDiscriminant a b c ∨
  ∃ root, Rational.sqrt places (Rational.abs (b * b - 4 * a * c)) = .ok root ∧ |a| ≤ root * 10 ^ places

/-- The solutions that are found, by the sign of the discriminant. -/
structure Counted (places : Nat) (a b c : Rat) (roots : List Number) : Prop where
  zero : b * b - 4 * a * c = 0 → ∃ q, roots = [.rational q]
  positive : 0 < b * b - 4 * a * c → ∃ q r, roots = [.rational q, .rational r] ∧ q ≤ r ∧ (Separated places a b c → q < r)
  negative : b * b - 4 * a * c < 0 → ∃ re im, roots = [.complex ⟨re, im⟩, .complex ⟨re, -im⟩] ∧
    (im ≠ 0 ↔ Separated places a b c)

theorem Rooted.exists_root (h : Rooted places a b c) :
    ∃ root, Rational.sqrt places (Rational.abs (b * b - 4 * a * c)) = .ok root := by
  rcases h with ⟨s, square⟩ | ⟨small, enough, -⟩
  · obtain ⟨root, taken, -⟩ := Rational.sqrt_square square places
    exact ⟨root, taken⟩
  · exact Rational.exists_sqrt (Rational.zero_le_abs _) small enough

theorem separated_iff (taken : Rational.sqrt places (Rational.abs (b * b - 4 * a * c)) = .ok root)
    (inexact : ¬SquareDiscriminant a b c) : Separated places a b c ↔ |a| ≤ root * 10 ^ places := by
  rw [Separated, or_iff_right inexact, taken]
  simp

/-- What is to be settled for a root that is found does not fail. -/
theorem Rooted.settle_eq_ok (h : Rooted places a b c)
    (taken : Rational.sqrt places (Rational.abs (b * b - 4 * a * c)) = .ok root) {q : Rat}
    (mem : q ∈ quantities a b c root) :
    settle places (root * root == Rational.abs (b * b - 4 * a * c)) q =
      .ok (settled places (root * root == Rational.abs (b * b - 4 * a * c)) q) := by
  rw [settle_eq]
  refine Outcome.written_of (Bool.or_eq_true_iff.2 ?_)
  rcases h with square | ⟨-, -, short⟩
  · exact .inl (beq_iff_eq.2 ((square_iff taken).2 square))
  · exact .inr (Rational.isWritableTo_iff.2 (short root taken q mem))

theorem ascending_cases (x y : Rat) : ∃ q r, ascending x y = [.rational q, .rational r] ∧ q ≤ r ∧ (x ≠ y → q < r) := by
  unfold ascending
  split
  next less => exact ⟨y, x, rfl, less.le, fun _ => less⟩
  next notLess => exact ⟨x, y, rfl, not_lt.1 notLess, lt_of_le_of_ne (not_lt.1 notLess)⟩

/-- A distance of one unit of the last place, for a root of the discriminant that is divided by the leading coefficient. -/
theorem one_le_distance (nonzero : a ≠ 0) (nonneg : 0 ≤ root) (scale : Rat) :
    1 ≤ |root / a| * scale ↔ |a| ≤ root * scale := by
  rw [abs_div, abs_of_nonneg nonneg, div_mul_eq_mul_div, one_le_div (abs_pos.2 nonzero)]

/-- Solutions on both sides of the vertex differ if they are separated. -/
theorem settled_ne_settled (nonzero : a ≠ 0) (positive : 0 < b * b - 4 * a * c)
    (taken : Rational.sqrt places (Rational.abs (b * b - 4 * a * c)) = .ok root) (separated : Separated places a b c) :
    settled places (root * root == Rational.abs (b * b - 4 * a * c)) ((-b - root) / (2 * a)) ≠
      settled places (root * root == Rational.abs (b * b - 4 * a * c)) ((-b + root) / (2 * a)) := by
  have double : 2 * a ≠ 0 := mul_ne_zero two_ne_zero nonzero
  have distance : (-b + root) / (2 * a) - (-b - root) / (2 * a) = root / a := by
    field_simp
    ring
  by_cases square : SquareDiscriminant a b c
  · have exact := (square_iff taken).2 square
    have root_ne_zero := Rational.ne_zero_of_mul_self exact positive.ne'
    rw [beq_iff_eq.2 exact]
    intro same
    rw [settled, if_pos rfl, settled, if_pos rfl, ← sub_eq_zero, ← neg_eq_zero, neg_sub, distance] at same
    exact div_ne_zero root_ne_zero nonzero same
  · rw [beq_eq_false_iff_ne.2 (mt (square_iff taken).1 square)]
    refine Rational.roundedTo_ne_roundedTo ?_
    rw [distance, one_le_distance nonzero (Rational.sqrt_nonneg taken)]
    exact (separated_iff taken square).1 separated

/-- The imaginary part of a solution is kept exactly if the solutions are separated. -/
theorem settled_ne_zero (nonzero : a ≠ 0) (negative : b * b - 4 * a * c < 0)
    (taken : Rational.sqrt places (Rational.abs (b * b - 4 * a * c)) = .ok root) :
    settled places (root * root == Rational.abs (b * b - 4 * a * c)) (root / (2 * a)) ≠ 0 ↔ Separated places a b c := by
  have double : 2 * a ≠ 0 := mul_ne_zero two_ne_zero nonzero
  by_cases square : SquareDiscriminant a b c
  · have exact := (square_iff taken).2 square
    have root_ne_zero := Rational.ne_zero_of_mul_self exact negative.ne
    rw [beq_iff_eq.2 exact]
    exact iff_of_true (div_ne_zero root_ne_zero double) (.inl square)
  · have half : |root / (2 * a)| * 10 ^ places = |root / a| * 10 ^ places / 2 := by
      rw [mul_comm 2 a, ← div_div, abs_div, abs_two, div_mul_eq_mul_div]
    rw [beq_eq_false_iff_ne.2 (mt (square_iff taken).1 square), separated_iff taken square,
      ← one_le_distance nonzero (Rational.sqrt_nonneg taken)]
    show ¬Rational.roundedTo places (root / (2 * a)) = 0 ↔ _
    rw [Rational.roundedTo_eq_zero, not_lt, half, div_le_div_iff_of_pos_right two_pos]

/-! ## Counting -/

theorem quadraticRoots_counts (nonzero : a ≠ 0) (rooted : Rooted places a b c) :
    ∃ roots, quadraticRoots places a b c = .ok roots ∧ Counted places a b c roots := by
  obtain ⟨root, taken⟩ := rooted.exists_root
  rcases lt_trichotomy (b * b - 4 * a * c) 0 with negative | zero | positive
  · have height := rooted.settle_eq_ok taken (q := root / (2 * a)) (by simp [quantities, negative.not_gt])
    refine ⟨_, quadraticRoots_of_neg negative taken height, ?_, ?_,
      fun _ => ⟨_, _, rfl, settled_ne_zero nonzero negative taken⟩⟩
    · exact fun zero => absurd zero negative.ne
    · exact fun positive => absurd positive negative.not_gt
  · refine ⟨_, quadraticRoots_of_zero zero, fun _ => ⟨_, rfl⟩, ?_, ?_⟩
    · exact fun positive => absurd zero positive.ne'
    · exact fun negative => absurd zero negative.ne
  · have lower := rooted.settle_eq_ok taken (q := (-b - root) / (2 * a)) (by simp [quantities, positive])
    have upper := rooted.settle_eq_ok taken (q := (-b + root) / (2 * a)) (by simp [quantities, positive])
    obtain ⟨q, r, found, order, strict⟩ := ascending_cases _ _
    refine ⟨_, quadraticRoots_of_pos positive taken lower upper, ?_, fun _ => ⟨q, r, found, order, fun separated => ?_⟩, ?_⟩
    · exact fun zero => absurd zero positive.ne'
    · exact strict (settled_ne_settled nonzero positive taken separated)
    · exact fun negative => absurd positive negative.not_gt

/-- A discriminant that is large enough for the leading coefficient keeps the solutions apart. -/
theorem separated_of_large (rooted : Rooted places a b c) (large : Double.underflowBound < Rational.abs (b * b - 4 * a * c))
    (wide : (2 * |a| + 1) ^ 2 ≤ Rational.abs (b * b - 4 * a * c) * (10 ^ places) ^ 2) : Separated places a b c := by
  obtain ⟨root, taken⟩ := rooted.exists_root
  have scaled : 0 ≤ root * 10 ^ places := mul_nonneg (Rational.sqrt_nonneg taken) (by positivity)
  have squares : (2 * |a| + 1) ^ 2 ≤ (2 * (root * 10 ^ places) + 1) ^ 2 := wide.trans (Rational.le_sqrt_sq large taken)
  have apart := (pow_le_pow_iff_left₀ (by positivity) (by positivity) two_ne_zero).1 squares
  exact .inr ⟨root, taken, by linarith⟩

/-- A quadratic equation with rational coefficients whose solutions are found. It has the solutions that the sign of the
discriminant says, and they are kept apart if the discriminant is not too small for the leading coefficient. -/
theorem solve_counts (degree : p.degree = 2) (atTwo : p.coefficient 2 = .ofRat a) (atOne : p.coefficient 1 = .ofRat b)
    (atZero : p.coefficient 0 = .ofRat c) (rooted : Rooted places a b c) :
    (∃ roots, p.solve places = .ok (.values roots) ∧ Counted places a b c roots) ∧
      (Double.underflowBound < Rational.abs (b * b - 4 * a * c) →
        (2 * |a| + 1) ^ 2 ≤ Rational.abs (b * b - 4 * a * c) * (10 ^ places) ^ 2 → Separated places a b c) := by
  refine ⟨?_, separated_of_large rooted⟩
  obtain ⟨roots, found, counted⟩ := quadraticRoots_counts (quadratic_ne_zero degree atTwo) rooted
  refine ⟨roots, ?_, counted⟩
  rw [solve_quadratic degree atTwo atOne atZero, found]
  rfl

/-- `x^2 - 2`, whose solutions are rounded to ten decimals. -/
theorem solve_counts_irrational :
    let p : Poly := .ofTerms ['x'] [(2, .ofRat 1), (0, .ofRat (-2))]
    p.degree = 2 ∧ p.coefficient 2 = .ofRat 1 ∧ p.coefficient 1 = .ofRat 0 ∧ p.coefficient 0 = .ofRat (-2) ∧
      Rooted 10 1 0 (-2) ∧
      p.solve 10 = .ok (.values [.rational (-1767766953 / 1250000000), .rational (1767766953 / 1250000000)]) ∧
      (∃ roots, p.solve 10 = .ok (.values roots) ∧ Counted 10 1 0 (-2) roots) ∧
        (Double.underflowBound < Rational.abs (0 * 0 - 4 * 1 * -2) →
          (2 * |1| + 1) ^ 2 ≤ Rational.abs (0 * 0 - 4 * 1 * -2) * (10 ^ 10) ^ 2 → Separated 10 1 0 (-2)) := by
  intro p
  have degree : p.degree = 2 := by decide +kernel
  have atTwo : p.coefficient 2 = .ofRat 1 := by decide +kernel
  have atOne : p.coefficient 1 = .ofRat 0 := by decide +kernel
  have atZero : p.coefficient 0 = .ofRat (-2) := by decide +kernel
  have root : Rational.sqrt 10 (Rational.abs (0 * 0 - 4 * 1 * -2)) = .ok (28284271247 / 10 ^ 10) := by decide +kernel
  have rooted : Rooted 10 1 0 (-2) := by
    refine rooted_of_few (by decide +kernel) (by decide +kernel) fun _ taken q mem => ?_
    cases root.symm.trans taken
    have size : |q| + 1 ≤ 10 ^ 1 := by
      rw [quantities, if_pos (by norm_num), List.mem_pair] at mem
      rcases mem with rfl | rfl <;> norm_num [abs_le]
    exact size.trans (pow_le_pow_right₀ (by norm_num) (by decide +kernel))
  exact ⟨degree, atTwo, atOne, atZero, rooted, by decide +kernel, solve_counts degree atTwo atOne atZero rooted⟩

/-- The discriminants of these equations are `8` and `-8`. Two solutions that differ are rounded to the same number, and
the imaginary parts of two conjugates are rounded to zero. -/
theorem rounded_solutions_coincide :
    let p : Poly := .ofTerms ['x'] [(2, .ofRat (10 ^ 12 - 2)), (1, .ofRat (2 * 10 ^ 6)), (0, .ofRat 1)]
    let q : Poly := .ofTerms ['x'] [(2, .ofRat (10 ^ 12 + 2)), (1, .ofRat (2 * 10 ^ 6)), (0, .ofRat 1)]
    let re : Rat := -(2 * 10 ^ 6) / (2 * (10 ^ 12 + 2))
    p.degree = 2 ∧ (0 : Rat) < 2 * 10 ^ 6 * (2 * 10 ^ 6) - 4 * (10 ^ 12 - 2) * 1 ∧
      p.solve 10 = .ok (.values [.rational (-1 / 10 ^ 6), .rational (-1 / 10 ^ 6)]) ∧
      q.degree = 2 ∧ (2 * 10 ^ 6 * (2 * 10 ^ 6) - 4 * (10 ^ 12 + 2) * 1 : Rat) < 0 ∧
      q.solve 10 = .ok (.values [.complex ⟨re, 0⟩, .complex ⟨re, 0⟩]) := by
  decide +kernel

end Poly

end Reckoner
