import Reckoner.Proofs.Poly.Roots
import Reckoner.Proofs.Value.Substitution
/-!
# Exact solutions

`Poly.solve_exact`: where the solutions are exact, they are all the numbers at which the polynomial is zero, each of them
once. Real ones are rational numbers in ascending order, and two that are not real are conjugates.
-/

namespace Reckoner

open Polynomial

namespace Poly

variable {p : Poly} {x : Text} {f : Gaussian[X]} {a : Rat} {roots : List Number}

/-! ## Evaluation -/

/-- A polynomial whose coefficients are numbers has a number as its value at a number. -/
theorem Denotes.eval_number (h : p.Denotes x f) (z : Number) :
    p.eval (.number z) = .ok (.number (.ofGaussian (f.eval z.toGaussian))) := by
  have argument : (Value.number z).Denotes x (C z.toGaussian) := rfl
  obtain ⟨r, denotes, value⟩ := h.eval argument
  rw [comp_C] at denotes
  rw [value, denotes.simplify_constant]

/-- Whether the list holds exactly the numbers at which the polynomial is zero: whatever the number, there is a value. -/
def ZerosAre (p : Poly) (roots : List Number) : Prop :=
  ∀ z : Number, ∃ v, p.eval (.number z) = .ok v ∧ (v.same (.rational 0) = true ↔ ∃ r ∈ roots, r.same z = true)

theorem Denotes.zerosAre (h : p.Denotes x f) (all : ∀ z, f.eval z = 0 ↔ ∃ r ∈ roots, r.toGaussian = z) : p.ZerosAre roots := by
  intro z
  have zero : (Value.number (.ofGaussian (f.eval z.toGaussian))).same (.rational 0) = true ↔ f.eval z.toGaussian = 0 := by
    refine Iff.trans beq_iff_eq ?_
    rw [Number.toGaussian_ofGaussian]
    exact Iff.rfl
  refine ⟨_, h.eval_number z, ?_⟩
  rw [zero, all]
  simp only [Number.same, beq_iff_eq]

/-! ## Order -/

/-- What is said of the solutions of `p = 0`, beyond being solutions. -/
structure Ordered (p : Poly) (roots : List Number) : Prop where
  distinct : roots.Pairwise fun r s => r.same s = false
  /-- Real solutions are rational numbers. -/
  simplest : ∀ r ∈ roots, r.simplify = r
  ascending : roots.Pairwise fun r s => ∀ q t : Rat, r = .rational q → s = .rational t → q < t
  /-- Solutions of a quadratic equation that are not real are two conjugates, and the leading coefficient tells which one
  comes first. -/
  conjugates : p.degree = 2 → ∀ a, p.coefficient 2 = .ofRat a → ∀ r ∈ roots, r.toGaussian.im ≠ 0 →
    ∃ z : Gaussian, roots = [.complex z, .complex z.conjugate] ∧ (0 < z.im ↔ 0 < a)

theorem ordered_nil (p : Poly) : p.Ordered [] where
  distinct := .nil
  simplest := by simp
  ascending := .nil
  conjugates := by simp

theorem ordered_singleton (degree : p.degree = 1) (root : Gaussian) : p.Ordered [.ofGaussian root] where
  distinct := List.pairwise_singleton _ _
  simplest := by simp [Number.simplify]
  ascending := List.pairwise_singleton _ _
  conjugates := by simp [degree]

theorem Quadratic.ordered (h : Quadratic a roots) (leading : p.coefficient 2 = .ofRat a) : p.Ordered roots := by
  cases h with
  | double q =>
    refine ⟨List.pairwise_singleton _ _, ?_, List.pairwise_singleton _ _, ?_⟩
    · simp [Number.simplify, Number.toGaussian, Number.ofGaussian]
    · simp [Number.toGaussian]
  | @real q r less =>
    refine ⟨List.pairwise_pair.2 ?_, ?_, List.pairwise_pair.2 ?_, ?_⟩
    · simp [Number.same, Number.toGaussian, Gaussian.ofRat, less.ne]
    · simp [Number.simplify, Number.toGaussian, Number.ofGaussian]
    · rintro _ _ ⟨⟩ ⟨⟩
      exact less
    · simp [Number.toGaussian]
  | @pair z nonreal upper =>
    refine ⟨List.pairwise_pair.2 ?_, ?_, List.pairwise_pair.2 ?_, ?_⟩
    · have differ : z.im ≠ -z.im := fun same => nonreal (self_eq_neg.1 same)
      simp [Number.same, Number.toGaussian, Gaussian.conjugate, Gaussian.ext_iff, differ]
    · simp [Number.simplify, Number.toGaussian, Number.ofGaussian, Gaussian.conjugate, nonreal]
    · simp
    · intro _ a' leading' _ _ _
      have same : a' = a := congrArg Gaussian.re (Coeff.scalar.inj (leading'.symm.trans leading))
      exact ⟨z, rfl, by rw [same, upper]⟩

/-! ## Solving -/

theorem solve_zero (zero : p.isZero = true) (places : Nat) : p.solve places = .ok .everything := by
  have degree : p.degree = 0 := by simp [degree, List.isEmpty_iff.1 zero]
  simp [solve, degree, zero]

/-- A constant other than zero has no zeros. -/
theorem Denotes.solve_constant (h : p.Denotes x f) (degree : p.degree = 0) (nonzero : p.isZero = false) (places : Nat) :
    p.solve places = .ok (.values []) ∧ ∀ z, f.eval z ≠ 0 := by
  refine ⟨by simp [solve, degree, nonzero], fun z => ?_⟩
  obtain ⟨c, rfl⟩ := natDegree_eq_zero.1 (h.degree_eq.symm.trans degree)
  rw [eval_C]
  rintro rfl
  rw [C_0] at h
  exact absurd (h.isZero_iff.2 rfl) (Bool.eq_false_iff.1 nonzero)

/-- A polynomial with numbers as coefficients that is constant, linear, or quadratic with rational coefficients and a
discriminant that is a square up to its sign. Every number solves the zero polynomial; the solutions of any other one are
exact. -/
theorem solve_exact (scalar : ∀ t ∈ p.terms, ∃ z, t.2 = .scalar z) (solvable : p.degree = 0 ∨ p.ExactlySolvable)
    (places : Nat) :
    (p.isZero = true → p.solve places = .ok .everything) ∧
      (p.isZero = false → ∃ roots, p.solve places = .ok (.values roots) ∧ p.ZerosAre roots ∧ p.Ordered roots) := by
  obtain ⟨f, h⟩ := exists_denotes scalar
  refine ⟨fun zero => solve_zero zero places, fun nonzero => ?_⟩
  rcases solvable with degree | degree | ⟨degree, a, b, c, atTwo, atOne, atZero, square⟩
  · obtain ⟨solved, none⟩ := h.solve_constant degree nonzero places
    exact ⟨[], solved, h.zerosAre (by simp [none]), ordered_nil p⟩
  · obtain ⟨root, solved, all⟩ := h.solve_linear degree places
    exact ⟨_, solved, h.zerosAre (by simp [all]), ordered_singleton degree root⟩
  · obtain ⟨roots, found, quadratic, all⟩ := quadraticRoots_exact (quadratic_ne_zero degree atTwo) square places
    have solved : p.solve places = .ok (.values roots) := by
      rw [solve_quadratic degree atTwo atOne atZero, found]
      rfl
    have zeros : ∀ z, f.eval z = 0 ↔ ∃ r ∈ roots, r.toGaussian = z := fun z =>
      (h.eval_eq_zero_iff degree atTwo atOne atZero z).trans (all z)
    exact ⟨roots, solved, h.zerosAre zeros, quadratic.ordered atTwo⟩

/-- `-x^2 + 2*x - 5/4`, whose leading coefficient is negative. -/
theorem solve_exact_conjugates :
    let p : Poly := .ofTerms ['x'] [(2, .scalar (-1)), (1, .scalar 2), (0, .scalar ⟨-5 / 4, 0⟩)]
    (∀ t ∈ p.terms, ∃ z, t.2 = .scalar z) ∧ (p.degree = 0 ∨ p.ExactlySolvable) ∧
      p.solve 10 = .ok (.values [.complex ⟨1, -1 / 2⟩, .complex ⟨1, 1 / 2⟩]) ∧
      ((p.isZero = true → p.solve 10 = .ok .everything) ∧
        (p.isZero = false → ∃ roots, p.solve 10 = .ok (.values roots) ∧ p.ZerosAre roots ∧ p.Ordered roots)) := by
  intro p
  have terms : p.terms = [(2, .scalar (-1)), (1, .scalar 2), (0, .scalar ⟨-5 / 4, 0⟩)] := by decide +kernel
  have scalar : ∀ t ∈ p.terms, ∃ z, t.2 = .scalar z := by simp [terms]
  have solvable : p.ExactlySolvable := .inr ⟨by decide +kernel, -1, 2, -5 / 4, by decide +kernel, by decide +kernel,
    by decide +kernel, 1, by decide +kernel⟩
  exact ⟨scalar, .inr solvable, by decide +kernel, solve_exact scalar (.inr solvable) 10⟩

end Poly

end Reckoner
