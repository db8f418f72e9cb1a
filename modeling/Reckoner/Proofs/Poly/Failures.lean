import Reckoner.Proofs.Double.Overflow
import Reckoner.Proofs.Expression.Overflow
import Reckoner.Proofs.Poly.Roots
/-!
# Equations without roots among doubles

`Poly.unrooted_of_solve`: an equation is solved or refused, except a quadratic one whose discriminant is no square up to its
sign. The root of such a discriminant is taken among doubles, where the discriminant may be too large, and it is rounded, for
which the number of decimals may be too large. The solutions are rounded as well, and then they may have too many digits.
-/

namespace Reckoner

/-- How a number without a rational root has none among rounded doubles either. -/
def Rational.Unrooted (places : Nat) (q : Rat) (e : Failure) : Prop :=
  Double.overflowBound ≤ q ∧ e = .overflow ∨
    q < Double.overflowBound ∧ greatestPlaces < places ∧ e = .meaningless

theorem Rational.unrooted_of_sqrt {places : Nat} {q : Rat} {e : Failure} (failed : sqrt places q = .error e)
    (nonneg : 0 ≤ q) : (¬∃ s, q = s * s) ∧ Unrooted places q e := by
  have inexact : ¬∃ s, q = s * s := by
    rintro ⟨s, square⟩
    obtain ⟨root, taken, -⟩ := sqrt_square square places
    rw [taken] at failed
    cases failed
  refine ⟨inexact, ?_⟩
  have size : |q| = q := abs_of_nonneg nonneg
  rw [sqrt, if_neg nonneg.not_gt] at failed
  split at failed
  · cases failed
  · rw [approximateRoot] at failed
    rcases toDouble_cases q with ⟨⟨d, nearest⟩, small⟩ | ⟨overflow, large⟩
    · rw [size] at small
      simp only [nearest] at failed
      by_cases enough : places ≤ greatestPlaces
      · simp [bind, Except.bind, enough, pure, Except.pure] at failed
      · simp only [bind, Except.bind, if_neg enough, Except.error.injEq] at failed
        exact .inr ⟨small, not_le.1 enough, failed.symm⟩
    · rw [size] at large
      simp only [overflow, bind, Except.bind, Except.error.injEq] at failed
      exact .inl ⟨large, failed.symm⟩

namespace Poly

variable {places : Nat} {a b c : Rat} {p : Poly}

/-- How the solutions of a quadratic equation whose discriminant is no square are not found: its root fails, or what comes
of the root is rounded to a number with a numeral too long to be written. -/
inductive Unsettled (places : Nat) (a b c : Rat) : Failure → Prop where
  | root {e} : Rational.Unrooted places (Rational.abs (b * b - 4 * a * c)) e → Unsettled places a b c e
  | numerals {root q} : Rational.sqrt places (Rational.abs (b * b - 4 * a * c)) = .ok root → q ∈ quantities a b c root →
    ¬Rational.ShortNumerals places (Rational.roundedTo places q) → Unsettled places a b c .meaningless

variable {e : Failure}

theorem unsettled_of_settle {root q : Rat} (taken : Rational.sqrt places (Rational.abs (b * b - 4 * a * c)) = .ok root)
    (mem : q ∈ quantities a b c root)
    (failed : settle places (root * root == Rational.abs (b * b - 4 * a * c)) q = .error e) :
    ¬SquareDiscriminant a b c ∧ Unsettled places a b c e := by
  obtain ⟨inexact, long, rfl⟩ := settle_eq_error failed
  exact ⟨fun square => beq_eq_false_iff_ne.1 inexact ((square_iff taken).2 square), .numerals taken mem long⟩

theorem unsettled_of_quadraticRoots (failed : quadraticRoots places a b c = .error e) :
    ¬SquareDiscriminant a b c ∧ Unsettled places a b c e := by
  simp only [quadraticRoots] at failed
  split at failed
  · cases failed
  · rcases Outcome.bind_eq_error.1 failed with failed | ⟨root, taken, failed⟩
    · obtain ⟨inexact, unrooted⟩ := Rational.unrooted_of_sqrt failed (Rational.zero_le_abs _)
      exact ⟨inexact, .root unrooted⟩
    · split at failed
      next positive =>
        have solutions : quantities a b c root = [(-b - root) / (2 * a), (-b + root) / (2 * a)] := if_pos positive
        rcases Outcome.bind_eq_error.1 failed with failed | ⟨x, -, failed⟩
        · exact unsettled_of_settle taken (by simp [solutions]) failed
        · rcases Outcome.bind_eq_error.1 failed with failed | ⟨y, -, ⟨⟩⟩
          exact unsettled_of_settle taken (by simp [solutions]) failed
      next notPositive =>
        have height : quantities a b c root = [root / (2 * a)] := if_neg notPositive
        rcases Outcome.bind_eq_error.1 failed with failed | ⟨im, -, ⟨⟩⟩
        exact unsettled_of_settle taken (by simp [height]) failed

/-- Whether a polynomial is quadratic and its solutions are not found. -/
def Unrooted (places : Nat) (p : Poly) (e : Failure) : Prop :=
  p.degree = 2 ∧ ∃ a b c, p.coefficient 2 = .ofRat a ∧ p.coefficient 1 = .ofRat b ∧ p.coefficient 0 = .ofRat c ∧
    ¬SquareDiscriminant a b c ∧ Unsettled places a b c e

theorem coefficient_of_scalarAt? {n : Nat} {z : Gaussian} (h : p.scalarAt? n = some z) (real : z.im = 0) :
    p.coefficient n = .ofRat z.re := by
  unfold scalarAt? at h
  split at h
  next w found =>
    cases h
    rw [found, Coeff.ofRat, Coeff.scalar.injEq]
    exact Gaussian.ext rfl real
  · cases h

end Poly

end Reckoner
