import Mathlib.Data.List.FinRange
import Reckoner.Mat.Basic
import Reckoner.Proofs.Double.Overflow
import Reckoner.Proofs.Lists
/-!
# Inverses with too large pivots

`Mat.power_eq_overflow`: a power of a matrix fails for a number that is too large exactly if the exponent is negative and
elimination compares a cell with a part that has no nearest double. The compared cells are those of the column that is cleared,
from the diagonal down; so a matrix of moderate cells may still fail in a later column, and one with a huge cell elsewhere
need not.
-/

namespace Reckoner

/-! ## Sizes -/

namespace Gaussian

/-- Whether a part is too large for a double. -/
def IsHuge (z : Gaussian) : Prop := Double.overflowBound ≤ |z.re| ∨ Double.overflowBound ≤ |z.im|

theorem magnitude_cases (z : Gaussian) :
    (∃ d, z.magnitude = .ok d) ∧ ¬z.IsHuge ∨ z.magnitude = .error .overflow ∧ z.IsHuge := by
  simp only [magnitude, toDoubles, IsHuge]
  rcases Rational.toDouble_cases z.re with ⟨⟨re, real⟩, small⟩ | ⟨real, large⟩
  · rcases Rational.toDouble_cases z.im with ⟨⟨im, imaginary⟩, small'⟩ | ⟨imaginary, large⟩
    · rw [real, imaginary]
      exact .inl ⟨⟨re.hypot im, rfl⟩, by simp [small, small']⟩
    · rw [real, imaginary]
      exact .inr ⟨rfl, .inr large⟩
  · rw [real]
    exact .inr ⟨rfl, .inl large⟩

theorem magnitude_eq_overflow {z : Gaussian} : z.magnitude = .error .overflow ↔ z.IsHuge := by
  rcases magnitude_cases z with ⟨⟨d, value⟩, small⟩ | ⟨value, huge⟩
  · simp [value, small]
  · simp [value, huge]

/-- The length of a number fails only by being too large. -/
theorem magnitude_eq_error {z : Gaussian} {e : Failure} (h : z.magnitude = .error e) : e = .overflow := by
  rcases magnitude_cases z with ⟨⟨d, value⟩, -⟩ | ⟨value, -⟩
  · rw [value] at h
    cases h
  · rw [value] at h
    exact (Except.error.inj h).symm

end Gaussian

/-! ## Elimination -/

namespace Grid

variable {n : Nat}

/-- The columns that elimination clears, each with the left grid that its pivot is picked from. -/
def stages (rule : PivotRule n) : List (Fin n) → Grid n n → List (Fin n × Grid n n)
  | [], _ => []
  | column :: rest, left =>
    (column, left) :: match rule column left with
      | .ok pivot =>
        if left.cell pivot column = 0 then [] else stages rule rest (clearColumn column pivot left left).1
      | .error _ => []

/-- Elimination fails where a rule does, and where a rule picks a zero. -/
theorem eliminate_eq_error {rule : PivotRule n} {columns : List (Fin n)} {left right : Grid n n} {e : Failure} :
    eliminate rule columns left right = .error e ↔ ∃ s ∈ stages rule columns left, rule s.1 s.2 = .error e ∨
      e = .fault .singularMatrix ∧ ∃ pivot, rule s.1 s.2 = .ok pivot ∧ s.2.cell pivot s.1 = 0 := by
  induction columns generalizing left right with
  | nil => exact iff_of_false nofun (by simp [stages])
  | cons column columns ih =>
    rw [eliminate, Outcome.bind_eq_error, stages, List.exists_mem_cons_iff]
    cases picked : rule column left with
    | error d => simp
    | ok pivot =>
      have later : (clearColumn column pivot left right).1 = (clearColumn column pivot left left).1 := rfl
      by_cases zero : left.cell pivot column = 0
      · simp [zero, refuse, eq_comm]
      · simp only [Except.ok.injEq, zero, if_false, ih, later, reduceCtorEq, false_or, exists_eq_left', and_false]

/-- Elimination is too large where a rule is. -/
theorem eliminate_eq_overflow {rule : PivotRule n} {columns : List (Fin n)} {left right : Grid n n} :
    eliminate rule columns left right = .error .overflow ↔
      ∃ s ∈ stages rule columns left, rule s.1 s.2 = .error .overflow := by
  simp only [eliminate_eq_error, reduceCtorEq, false_and, or_false]

theorem mem_remaining {column : Fin n} (row : { row : Fin n // column ≤ row }) : row ∈ remaining column := by
  refine List.mem_filterMap.2 ⟨row.val, List.mem_finRange _, ?_⟩
  rw [dif_pos row.property]

section Largest

variable {column : Fin n} {g : Grid n n}

/-- A row and its size are only unknown where the size is. -/
theorem sized_eq_error {row : { row : Fin n // column ≤ row }} {e : Failure} :
    ((do return (row, ← (g.cell row.val column).magnitude)) : Outcome _) = .error e ↔
      (g.cell row.val column).magnitude = .error e := by
  rw [Outcome.bind_eq_error]
  simp [pure, Except.pure]

/-- The largest pivot cannot be picked where a cell that is compared has no size. -/
theorem largestPivot_eq_error {e : Failure} (h : largestPivot column g = .error e) :
    ∃ row, column ≤ row ∧ (g.cell row column).magnitude = .error e := by
  rw [largestPivot, Outcome.bind_eq_error] at h
  rcases h with failed | ⟨sizes, -, picked⟩
  · obtain ⟨row, -, failed⟩ := Lists.exists_of_mapM_eq_error failed
    exact ⟨row.val, row.property, sized_eq_error.1 failed⟩
  · split at picked <;> cases picked

/-- The largest pivot cannot be picked exactly if a cell that is compared is huge. -/
theorem largestPivot_eq_overflow :
    largestPivot column g = .error .overflow ↔ ∃ row, column ≤ row ∧ (g.cell row column).IsHuge := by
  constructor
  · intro failed
    obtain ⟨row, below, size⟩ := largestPivot_eq_error failed
    exact ⟨row, below, Gaussian.magnitude_eq_overflow.1 size⟩
  · rintro ⟨row, below, huge⟩
    have only : ∀ (row : { row : Fin n // column ≤ row }) (e : Failure),
        ((do return (row, ← (g.cell row.val column).magnitude)) : Outcome _) = .error e → e = .overflow :=
      fun row e failed => Gaussian.magnitude_eq_error (sized_eq_error.1 failed)
    rw [largestPivot, Outcome.bind_eq_error, Lists.mapM_eq_error_iff only]
    exact .inl ⟨⟨row, below⟩, mem_remaining _, sized_eq_error.2 (Gaussian.magnitude_eq_overflow.2 huge)⟩

end Largest

/-- Whether the grid is invertible and elimination compares a huge cell. -/
def Oversized (g : Grid n n) : Prop :=
  g.det ≠ 0 ∧ ∃ s ∈ stages largestPivot (List.finRange n) g, ∃ row, s.1 ≤ row ∧ (s.2.cell row s.1).IsHuge

theorem inverse_eq_overflow {g : Grid n n} : g.inverse = .error .overflow ↔ g.Oversized := by
  rw [inverse, inverseWith, Oversized]
  split
  next singular => simp [singular, refuse]
  next regular => simp only [regular, not_false_eq_true, ne_eq, true_and, eliminate_eq_overflow, largestPivot_eq_overflow]

/-- Whether the grid is square and too large to be inverted. -/
def SquareOversized {r c : Nat} (g : Grid r c) : Prop := ∃ square : c = r, (g.resize rfl square).Oversized

end Grid

/-! ## Powers -/

namespace Mat

/-- Whether the matrix is square and its grid too large to be inverted. -/
def Oversized (m : Mat) : Prop := m.grid.SquareOversized

theorem power_eq_overflow {m : Mat} {n : Int} : m.power n = .error .overflow ↔ n < 0 ∧ m.Oversized := by
  simp only [power_eq, onSquare, Oversized, Grid.SquareOversized]
  split
  next square =>
    split
    next natural => simp; omega
    next negative =>
      rw [Outcome.bind_eq_error, Grid.inverse_eq_overflow]
      simp [pure, Except.pure, square]; omega
  next other => simp [refuse, other]

end Mat

end Reckoner
