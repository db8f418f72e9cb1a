import Reckoner.Proofs.Poly.Failures
import Reckoner.Proofs.Poly.RootCount
/-!
# Which solutions are rounded

The number of decimals matters only to a quadratic equation with a discriminant that is no square up to its sign, and whose
solutions are found with some number of decimals: `Poly.solve_congr`. To such an equation it does matter:
`Poly.RoundsRoots.solve`.
-/

namespace Reckoner

/-! ## Roots that are not rational -/

/-- A number without a rational root has none if it has none among rounded doubles. -/
theorem Rational.sqrt_of_unrooted {places : Nat} {q : Rat} {e : Failure} (nonneg : 0 ≤ q) (inexact : ¬∃ s, q = s * s)
    (unrooted : Unrooted places q e) : sqrt places q = .error e := by
  have size : |q| = q := abs_of_nonneg nonneg
  have approximate : sqrt places q = approximateRoot places q := by
    rw [sqrt, if_neg nonneg.not_gt]
    cases exact : exactRoot? q with
    | none => rfl
    | some root => exact absurd ⟨root, (exactRoot?_spec exact).2.symm⟩ inexact
  rw [approximate, approximateRoot]
  rcases unrooted with ⟨large, rfl⟩ | ⟨small, many, rfl⟩
  · rw [toDouble_eq_overflow.2 (size.symm ▸ large)]
    rfl
  · rcases toDouble_cases q with ⟨⟨d, nearest⟩, -⟩ | ⟨-, large⟩
    · rw [nearest]
      exact if_neg many.not_ge
    · exact absurd (size ▸ large) small.not_ge

/-! ## Quadratic equations -/

namespace Poly

variable {a b c : Rat} {places places' : Nat} {p : Poly}

theorem discriminant_ne_zero (inexact : ¬SquareDiscriminant a b c) : b * b - 4 * a * c ≠ 0 := by
  intro zero
  exact inexact ⟨0, by rw [zero, Rational.abs_eq, abs_zero, mul_zero]⟩

/-- If the root of the discriminant fails, the equation does. -/
theorem quadraticRoots_of_unrooted (inexact : ¬SquareDiscriminant a b c) {e : Failure}
    (unrooted : Rational.Unrooted places (Rational.abs (b * b - 4 * a * c)) e) :
    quadraticRoots places a b c = .error e := by
  simp only [quadraticRoots, if_neg (discriminant_ne_zero inexact),
    Rational.sqrt_of_unrooted (Rational.zero_le_abs _) inexact unrooted]
  rfl

/-- What is settled on for a root that is no exact one is rounded, and so it has short numerals. -/
theorem short_of_settle {root q x : Rat} (inexact : ¬SquareDiscriminant a b c)
    (taken : Rational.sqrt places (Rational.abs (b * b - 4 * a * c)) = .ok root)
    (settles : settle places (root * root == Rational.abs (b * b - 4 * a * c)) q = .ok x) :
    Rational.ShortNumerals places (Rational.roundedTo places q) := by
  rw [settle_eq, beq_eq_false_iff_ne.2 (mt (square_iff taken).1 inexact), Bool.false_or] at settles
  exact Rational.isWritableTo_iff.1 (Outcome.written_eq_ok.1 settles).1

/-- Solutions are found only if the root of the discriminant is, and what comes of it can be rounded. -/
theorem rooted_of_quadraticRoots {roots : List Number} (found : quadraticRoots places a b c = .ok roots) :
    Rooted places a b c := by
  by_cases inexact : SquareDiscriminant a b c
  · exact .inl inexact
  have rooted : ∀ e, ¬Rational.Unrooted places (Rational.abs (b * b - 4 * a * c)) e := fun e unrooted => by
    cases found.symm.trans (quadraticRoots_of_unrooted inexact unrooted)
  have small : Rational.abs (b * b - 4 * a * c) < Double.overflowBound :=
    lt_of_not_ge fun large => rooted .overflow (.inl ⟨large, rfl⟩)
  refine .inr ⟨small, le_of_not_gt fun many => rooted .meaningless (.inr ⟨small, many, rfl⟩), fun root taken q mem => ?_⟩
  simp only [quadraticRoots, if_neg (discriminant_ne_zero inexact), taken] at found
  rw [quantities] at mem
  split at mem
  next positive =>
    obtain ⟨x, lower, found⟩ := Outcome.bind_eq_ok.1 ((if_pos positive).symm.trans found)
    obtain ⟨y, upper, -⟩ := Outcome.bind_eq_ok.1 found
    rcases List.mem_pair.1 mem with rfl | rfl
    · exact short_of_settle inexact taken lower
    · exact short_of_settle inexact taken upper
  next notPositive =>
    obtain ⟨im, height, -⟩ := Outcome.bind_eq_ok.1 ((if_neg notPositive).symm.trans found)
    obtain rfl := List.mem_singleton.1 mem
    exact short_of_settle inexact taken height

/-- Where the discriminant has a nearest double, solutions that are not found have no meaning. -/
theorem quadraticRoots_of_not_rooted (small : Rational.abs (b * b - 4 * a * c) < Double.overflowBound)
    (unrooted : ¬Rooted places a b c) : quadraticRoots places a b c = .error .meaningless := by
  cases found : quadraticRoots places a b c with
  | ok roots => exact absurd (rooted_of_quadraticRoots found) unrooted
  | error e =>
    obtain ⟨-, unsettled⟩ := unsettled_of_quadraticRoots found
    cases unsettled with
    | root unrooted =>
      rcases unrooted with ⟨large, -⟩ | ⟨-, -, rfl⟩
      · exact absurd small large.not_gt
      · rfl
    | numerals => rfl

/-- Exact roots, and those that are too large to be taken, do not depend on the number of decimals. -/
theorem quadraticRoots_congr
    (same : SquareDiscriminant a b c ∨ Double.overflowBound ≤ Rational.abs (b * b - 4 * a * c)) :
    quadraticRoots places a b c = quadraticRoots places' a b c := by
  by_cases exact : SquareDiscriminant a b c
  · obtain ⟨s, square⟩ := exact
    have taken : ∀ places, Rational.sqrt places (Rational.abs (b * b - 4 * a * c)) = .ok (Rational.abs s) := by
      intro places
      rw [square, Rational.sqrt_mul_self]
    have kept : ∀ places q,
        settle places (Rational.abs s * Rational.abs s == Rational.abs (b * b - 4 * a * c)) q = .ok q := fun _ _ =>
      if_pos (by rw [beq_iff_eq, square, Rational.abs_eq, abs_mul_abs_self])
    rcases lt_trichotomy (b * b - 4 * a * c) 0 with negative | zero | positive
    · exact (quadraticRoots_of_neg negative (taken places) (kept _ _)).trans
        (quadraticRoots_of_neg negative (taken places') (kept _ _)).symm
    · rw [quadraticRoots_of_zero zero, quadraticRoots_of_zero zero]
    · exact (quadraticRoots_of_pos positive (taken places) (kept _ _) (kept _ _)).trans
        (quadraticRoots_of_pos positive (taken places') (kept _ _) (kept _ _)).symm
  · have large := same.resolve_left exact
    rw [quadraticRoots_of_unrooted exact (.inl ⟨large, rfl⟩), quadraticRoots_of_unrooted exact (.inl ⟨large, rfl⟩)]

/-! ## Polynomials -/

/-- A quadratic polynomial with rational coefficients. -/
def IsQuadratic (p : Poly) (a b c : Rat) : Prop :=
  p.degree = 2 ∧ p.coefficient 2 = .ofRat a ∧ p.coefficient 1 = .ofRat b ∧ p.coefficient 0 = .ofRat c

theorem IsQuadratic.solve (h : p.IsQuadratic a b c) (places : Nat) :
    p.solve places = (quadraticRoots places a b c).map .values :=
  solve_quadratic h.1 h.2.1 h.2.2.1 h.2.2.2

/-- No root is taken but for a quadratic equation with rational coefficients. -/
theorem solve_cases (p : Poly) : (∃ outcome, ∀ places, p.solve places = outcome) ∨ ∃ a b c, p.IsQuadratic a b c := by
  by_cases quadratic : ∃ a b c, p.IsQuadratic a b c
  · exact .inr quadratic
  refine .inl ⟨p.solve 0, fun places => ?_⟩
  unfold solve
  split
  next => rfl
  next n degree =>
    split
    next => rfl
    next low =>
      split
      next a b c atTwo atOne atZero =>
        split
        next => rfl
        next notLinear =>
          split
          next real => exact absurd ⟨a.re, b.re, c.re, by omega, coefficient_of_scalarAt? atTwo real.1,
            coefficient_of_scalarAt? atOne real.2.1, coefficient_of_scalarAt? atZero real.2.2⟩ quadratic
          next => rfl
      next => rfl

/-- Whether there are rounded solutions: the discriminant is no square up to its sign, and with some number of decimals the
solutions are found. -/
def RoundsRoots (p : Poly) : Prop :=
  ∃ a b c, p.IsQuadratic a b c ∧ ¬SquareDiscriminant a b c ∧ ∃ places, Rooted places a b c

/-- Solutions that are not rounded do not depend on the number of decimals. -/
theorem solve_congr (h : ¬p.RoundsRoots) (places places' : Nat) : p.solve places = p.solve places' := by
  rcases p.solve_cases with ⟨outcome, all⟩ | ⟨a, b, c, quadratic⟩
  · rw [all, all]
  rw [quadratic.solve, quadratic.solve]
  by_cases exact : SquareDiscriminant a b c
  · rw [quadraticRoots_congr (.inl exact)]
  rcases lt_or_ge (Rational.abs (b * b - 4 * a * c)) Double.overflowBound with small | large
  · have unrooted : ∀ places, ¬Rooted places a b c := fun places rooted => h ⟨a, b, c, quadratic, exact, places, rooted⟩
    rw [quadraticRoots_of_not_rooted small (unrooted _), quadraticRoots_of_not_rooted small (unrooted _)]
  · rw [quadraticRoots_congr (.inr large)]

/-- Rounded solutions are found with some number of decimals, and not with so many that rounding has no meaning; wherever
they are not found, it has none. -/
theorem RoundsRoots.solve (h : p.RoundsRoots) : (∃ places s, p.solve places = .ok s) ∧
    p.solve (Rational.greatestPlaces + 1) = .error .meaningless ∧
      ∀ places e, p.solve places = .error e → e = .meaningless := by
  obtain ⟨a, b, c, quadratic, inexact, places, rooted⟩ := h
  have small := (rooted.resolve_left inexact).1
  have nonzero : a ≠ 0 := quadratic_ne_zero quadratic.1 quadratic.2.1
  obtain ⟨roots, found, -⟩ := quadraticRoots_counts nonzero rooted
  refine ⟨⟨places, .values roots, by rw [quadratic.solve, found]; rfl⟩, ?_, fun places e failed => ?_⟩
  · have many : Rational.greatestPlaces < Rational.greatestPlaces + 1 := by omega
    rw [quadratic.solve, quadraticRoots_of_unrooted inexact (.inr ⟨small, many, rfl⟩)]
    rfl
  · rw [quadratic.solve, Outcome.map_eq_error] at failed
    have unrooted : ¬Rooted places a b c := fun rooted => by
      obtain ⟨roots, found, -⟩ := quadraticRoots_counts nonzero rooted
      cases found.symm.trans failed
    cases (quadraticRoots_of_not_rooted small unrooted).symm.trans failed
    rfl

end Poly

end Reckoner
