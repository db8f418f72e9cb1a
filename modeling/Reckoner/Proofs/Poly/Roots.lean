import Mathlib.Tactic.FieldSimp
import Mathlib.Tactic.LinearCombination
import Reckoner.Poly.Roots
import Reckoner.Proofs.Rational.Root
import Reckoner.Proofs.Value.Power
/-!
# Exact roots

The solutions of a linear equation, and those of a quadratic one whose discriminant is a square up to its sign, are the
roots of the element of Q(i)[X] that the polynomial stands for.
-/

namespace Reckoner

open Polynomial

/-! ## Quadratic equations -/

namespace Poly

variable {a b c : Rat} {places : Nat}

/-- Whether a number solves `a * z ^ 2 + b * z + c = 0`. -/
def IsRoot (a b c : Rat) (z : Gaussian) : Prop :=
  Gaussian.ofRat a * (z * z) + Gaussian.ofRat b * z + Gaussian.ofRat c = 0

/-- The roots lie on both sides of the vertex of the parabola, at a distance whose square is that of the discriminant. -/
theorem isRoot_iff (nonzero : a ≠ 0) (s : Gaussian) {z : Gaussian}
    (square : s * s = Gaussian.ofRat ((b * b - 4 * a * c) / (2 * a) ^ 2)) :
    IsRoot a b c z ↔ z = Gaussian.ofRat (-b / (2 * a)) + s ∨ z = Gaussian.ofRat (-b / (2 * a)) - s := by
  set v := -b / (2 * a) with vertex
  have linear : b = -(a * v) - a * v := by
    rw [vertex]
    field_simp
    ring
  have constant : c = a * (v * v - (b * b - 4 * a * c) / (2 * a) ^ 2) := by
    rw [vertex]
    field_simp
    ring
  have linear' : Gaussian.ofRat b = -(Gaussian.ofRat a * Gaussian.ofRat v) - Gaussian.ofRat a * Gaussian.ofRat v := by
    rw [linear, Gaussian.ofRat_sub, Gaussian.ofRat_neg, Gaussian.ofRat_mul]
  have factors : Gaussian.ofRat a * (z * z) + Gaussian.ofRat b * z + Gaussian.ofRat c =
      Gaussian.ofRat a * ((z - (Gaussian.ofRat v + s)) * (z - (Gaussian.ofRat v - s))) := by
    rw [linear', constant, Gaussian.ofRat_mul, Gaussian.ofRat_sub, Gaussian.ofRat_mul, ← square]
    ring
  rw [IsRoot, factors, mul_eq_zero, or_iff_right (mt Gaussian.ofRat_eq_zero.1 nonzero), mul_eq_zero, sub_eq_zero, sub_eq_zero]

/-- Where the discriminant is a square, its roots lead to both solutions. -/
theorem isRoot_iff_of_pos (nonzero : a ≠ 0) {root : Rat} (square : root * root = b * b - 4 * a * c) {z : Gaussian} :
    IsRoot a b c z ↔ z = Gaussian.ofRat ((-b - root) / (2 * a)) ∨ z = Gaussian.ofRat ((-b + root) / (2 * a)) := by
  have distance : Gaussian.ofRat (root / (2 * a)) * Gaussian.ofRat (root / (2 * a)) =
      Gaussian.ofRat ((b * b - 4 * a * c) / (2 * a) ^ 2) := by
    rw [← Gaussian.ofRat_mul, div_mul_div_comm, square, sq]
  rw [isRoot_iff nonzero _ distance, ← Gaussian.ofRat_add, ← Gaussian.ofRat_sub, ← add_div, ← sub_div, or_comm]

/-- Where the opposite of the discriminant is a square, the solutions are conjugates. -/
theorem isRoot_iff_of_neg (nonzero : a ≠ 0) {root : Rat} (square : root * root = -(b * b - 4 * a * c)) {z : Gaussian} :
    IsRoot a b c z ↔ z = ⟨-b / (2 * a), root / (2 * a)⟩ ∨ z = ⟨-b / (2 * a), -(root / (2 * a))⟩ := by
  have size : root / (2 * a) * (root / (2 * a)) = -(b * b - 4 * a * c) / (2 * a) ^ 2 := by
    rw [div_mul_div_comm, square, sq]
  have distance : (⟨0, root / (2 * a)⟩ : Gaussian) * ⟨0, root / (2 * a)⟩ =
      Gaussian.ofRat ((b * b - 4 * a * c) / (2 * a) ^ 2) := by
    ext
    · rw [Gaussian.mul_re, Gaussian.ofRat_re]
      linear_combination -size
    · simp
  rw [isRoot_iff nonzero _ distance]
  simp [Gaussian.ext_iff]

/-- Whether the discriminant is the square of a rational number, or the opposite of one. -/
def SquareDiscriminant (a b c : Rat) : Prop := ∃ s, Rational.abs (b * b - 4 * a * c) = s * s

/-- A root of the size of the discriminant is exact where there is an exact one. -/
theorem square_iff {root : Rat} (taken : Rational.sqrt places (Rational.abs (b * b - 4 * a * c)) = .ok root) :
    root * root = Rational.abs (b * b - 4 * a * c) ↔ SquareDiscriminant a b c := by
  refine ⟨fun square => ⟨root, square.symm⟩, ?_⟩
  rintro ⟨s, square⟩
  obtain ⟨root', taken', square'⟩ := Rational.sqrt_square square places
  cases taken.symm.trans taken'
  exact square'

/-! ### The three cases -/

/-- What is settled on for a root of the discriminant: both solutions, or the imaginary part of one. -/
def quantities (a b c root : Rat) : List Rat :=
  if 0 < b * b - 4 * a * c then [(-b - root) / (2 * a), (-b + root) / (2 * a)] else [root / (2 * a)]

/-- What is settled on for a quantity, where it does not fail. -/
def settled (places : Nat) (exact : Bool) (q : Rat) : Rat := if exact then q else Rational.roundedTo places q

theorem settle_eq (places : Nat) (exact : Bool) (q : Rat) :
    settle places exact q = .written (exact || Rational.isWritableTo places q) (settled places exact q) := by
  cases exact <;> rfl

/-- Nothing but rounding fails. -/
theorem settle_eq_error {exact : Bool} {q : Rat} {e : Failure} (failed : settle places exact q = .error e) :
    exact = false ∧ ¬Rational.ShortNumerals places (Rational.roundedTo places q) ∧ e = .meaningless := by
  rw [settle_eq, Outcome.written_eq_error, Bool.or_eq_false_iff] at failed
  obtain ⟨⟨inexact, long⟩, meaningless⟩ := failed
  exact ⟨inexact, fun short => absurd (Rational.isWritableTo_iff.2 short) (by simp [long]), meaningless⟩

theorem quadraticRoots_of_zero (zero : b * b - 4 * a * c = 0) :
    quadraticRoots places a b c = .ok [.rational (-b / (2 * a))] := if_pos zero

theorem quadraticRoots_of_pos (positive : 0 < b * b - 4 * a * c) {root : Rat}
    (taken : Rational.sqrt places (Rational.abs (b * b - 4 * a * c)) = .ok root) {x y : Rat}
    (lower : settle places (root * root == Rational.abs (b * b - 4 * a * c)) ((-b - root) / (2 * a)) = .ok x)
    (upper : settle places (root * root == Rational.abs (b * b - 4 * a * c)) ((-b + root) / (2 * a)) = .ok y) :
    quadraticRoots places a b c = .ok (ascending x y) := by
  simp only [quadraticRoots, if_neg positive.ne', taken]
  refine (if_pos positive).trans ?_
  rw [lower, upper]
  rfl

theorem quadraticRoots_of_neg (negative : b * b - 4 * a * c < 0) {root : Rat}
    (taken : Rational.sqrt places (Rational.abs (b * b - 4 * a * c)) = .ok root) {im : Rat}
    (height : settle places (root * root == Rational.abs (b * b - 4 * a * c)) (root / (2 * a)) = .ok im) :
    let z : Gaussian := ⟨-b / (2 * a), im⟩
    quadraticRoots places a b c = .ok [.complex z, .complex z.conjugate] := by
  simp only [quadraticRoots, if_neg negative.ne, taken]
  refine (if_neg negative.not_gt).trans ?_
  rw [height]
  rfl

theorem mem_ascending {x y : Rat} {r : Number} : r ∈ ascending x y ↔ r = .rational x ∨ r = .rational y := by
  unfold ascending
  split <;> simp [or_comm]

/-! ### Exact roots -/

/-- What is found for a quadratic equation with the leading coefficient `a`. -/
inductive Quadratic (a : Rat) : List Number → Prop where
  | double (q : Rat) : Quadratic a [.rational q]
  | real {q r : Rat} : q < r → Quadratic a [.rational q, .rational r]
  | pair {z : Gaussian} : z.im ≠ 0 → (0 < z.im ↔ 0 < a) → Quadratic a [.complex z, .complex z.conjugate]

theorem Quadratic.ascending {x y : Rat} (differ : x ≠ y) : Quadratic a (ascending x y) := by
  unfold Poly.ascending
  split
  next less => exact .real less
  next notLess => exact .real (lt_of_le_of_ne (not_lt.1 notLess) differ)

/-- A quadratic equation whose discriminant is a square up to its sign has the roots that are found, and no others. -/
theorem quadraticRoots_exact (nonzero : a ≠ 0) (exact : SquareDiscriminant a b c) (places : Nat) :
    ∃ roots, quadraticRoots places a b c = .ok roots ∧ Quadratic a roots ∧
      ∀ z, IsRoot a b c z ↔ ∃ r ∈ roots, r.toGaussian = z := by
  obtain ⟨s, size⟩ := exact
  obtain ⟨root, taken, square⟩ := Rational.sqrt_square size places
  have kept : ∀ q, settle places (root * root == Rational.abs (b * b - 4 * a * c)) q = .ok q :=
    fun q => if_pos (beq_iff_eq.2 square)
  have double : 2 * a ≠ 0 := mul_ne_zero two_ne_zero nonzero
  rcases lt_trichotomy (b * b - 4 * a * c) 0 with negative | zero | positive
  · have found := quadraticRoots_of_neg negative taken (kept _)
    have height := Rational.ne_zero_of_mul_self square negative.ne
    have upper : 0 < root / (2 * a) ↔ 0 < a := by
      rw [div_eq_mul_inv, mul_pos_iff_of_pos_left ((Rational.sqrt_nonneg taken).lt_of_ne' height), inv_pos,
        mul_pos_iff_of_pos_left two_pos]
    refine ⟨_, found, .pair (div_ne_zero height double) upper, fun z => ?_⟩
    rw [isRoot_iff_of_neg nonzero (square.trans (Rational.abs_of_neg negative))]
    simp [Number.toGaussian, Gaussian.conjugate, eq_comm]
  · refine ⟨_, quadraticRoots_of_zero zero, .double _, fun z => ?_⟩
    rw [isRoot_iff nonzero 0 (by rw [zero, zero_div, mul_zero]; rfl)]
    simp [Number.toGaussian, eq_comm]
  · have found := quadraticRoots_of_pos positive taken (kept _) (kept _)
    have differ : (-b - root) / (2 * a) ≠ (-b + root) / (2 * a) := by
      rw [ne_eq, div_left_inj' double]
      intro same
      exact Rational.ne_zero_of_mul_self square positive.ne' (by linarith)
    refine ⟨_, found, .ascending differ, fun z => ?_⟩
    rw [isRoot_iff_of_pos nonzero (square.trans (Rational.abs_of_pos positive))]
    simp [mem_ascending, Number.toGaussian, or_and_right, exists_or, eq_comm]

/-! ## Polynomials -/

/-- Whether the polynomial is linear, or quadratic with rational coefficients and a discriminant that is a square up to
its sign. -/
def ExactlySolvable (p : Poly) : Prop :=
  p.degree = 1 ∨ p.degree = 2 ∧ ∃ a b c, p.coefficient 2 = .ofRat a ∧ p.coefficient 1 = .ofRat b ∧
    p.coefficient 0 = .ofRat c ∧ SquareDiscriminant a b c

variable {p : Poly} {x : Text} {f : Gaussian[X]}

theorem Denotes.scalarAt?_eq (h : p.Denotes x f) (n : Nat) : p.scalarAt? n = some (f.coeff n) := by
  rw [scalarAt?, h.coefficient_eq]

theorem eval_of_natDegree_le_two (h : f.natDegree ≤ 2) (z : Gaussian) :
    f.eval z = f.coeff 2 * (z * z) + f.coeff 1 * z + f.coeff 0 := by
  rw [eval_eq_sum_range' (Nat.lt_succ_of_le h), Finset.sum_range_succ, Finset.sum_range_succ, Finset.sum_range_one]
  ring

/-- The coefficient at the highest power is not zero. -/
theorem leading_ne_zero (positive : 0 < p.degree) : (p.coefficient p.degree).isZero = false := by
  cases terms : p.terms with
  | nil => simp [degree, terms] at positive
  | cons t rest =>
    obtain ⟨n, z⟩ := t
    have first : p.coefficient p.degree = z := by simp [degree, coefficient, terms, List.lookup_cons_self]
    rw [first]
    exact p.nonzero (n, z) (terms ▸ List.mem_cons_self)

theorem solve_quadratic (degree : p.degree = 2) (atTwo : p.coefficient 2 = .ofRat a) (atOne : p.coefficient 1 = .ofRat b)
    (atZero : p.coefficient 0 = .ofRat c) : p.solve places = (quadraticRoots places a b c).map .values := by
  simp [solve, degree, scalarAt?, atTwo, atOne, atZero, Coeff.ofRat]

theorem quadratic_ne_zero (degree : p.degree = 2) (atTwo : p.coefficient 2 = .ofRat a) : a ≠ 0 := by
  rintro rfl
  have leading := p.leading_ne_zero (by omega)
  rw [degree, atTwo] at leading
  cases leading

/-- A linear equation has one solution. -/
theorem Denotes.solve_linear (h : p.Denotes x f) (degree : p.degree = 1) (places : Nat) :
    ∃ root, p.solve places = .ok (.values [.ofGaussian root]) ∧ ∀ z, f.eval z = 0 ↔ root = z := by
  have linear : f.natDegree = 1 := h.degree_eq.symm.trans degree
  have nonzero : f.coeff 1 ≠ 0 := by
    rw [← linear]
    exact leadingCoeff_ne_zero.2 (ne_zero_of_natDegree_gt (n := 0) (by omega))
  refine ⟨-f.coeff 0 / f.coeff 1, ?_, fun z => ?_⟩
  · simp [solve, degree, h.scalarAt?_eq, linearRoot]
  · rw [eval_of_natDegree_le_two (by omega), coeff_eq_zero_of_natDegree_lt (by omega : f.natDegree < 2), zero_mul, zero_add,
      div_eq_iff nonzero, neg_eq_iff_add_eq_zero, add_comm, mul_comm]

/-- A quadratic equation with rational coefficients is one of the element that the polynomial stands for. -/
theorem Denotes.eval_eq_zero_iff (h : p.Denotes x f) (degree : p.degree = 2) (atTwo : p.coefficient 2 = .ofRat a)
    (atOne : p.coefficient 1 = .ofRat b) (atZero : p.coefficient 0 = .ofRat c) (z : Gaussian) :
    f.eval z = 0 ↔ IsRoot a b c z := by
  rw [h.coefficient_eq, Coeff.ofRat, Coeff.scalar.injEq] at atTwo atOne atZero
  rw [eval_of_natDegree_le_two (h.degree_eq.symm.trans degree).le, atTwo, atOne, atZero, IsRoot]

/-- What is found for an exactly solvable polynomial are roots of the element that it stands for. -/
theorem Denotes.eval_root (h : p.Denotes x f) (solvable : p.ExactlySolvable) {places : Nat} {roots : List Number}
    (solved : p.solve places = .ok (.values roots)) : ∀ r ∈ roots, f.eval r.toGaussian = 0 := by
  intro r mem
  rcases solvable with degree | ⟨degree, a, b, c, atTwo, atOne, atZero, square⟩
  · obtain ⟨root, found, all⟩ := h.solve_linear degree places
    cases found.symm.trans solved
    rw [List.mem_singleton.1 mem, Number.toGaussian_ofGaussian, all]
  · obtain ⟨found, exact, -, all⟩ := quadraticRoots_exact (quadratic_ne_zero degree atTwo) square places
    rw [solve_quadratic degree atTwo atOne atZero, exact] at solved
    cases solved
    exact (h.eval_eq_zero_iff degree atTwo atOne atZero _).2 ((all _).2 ⟨r, mem, rfl⟩)

end Poly

end Reckoner
