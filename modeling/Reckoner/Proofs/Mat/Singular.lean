import Reckoner.Proofs.Double.Underflow
import Reckoner.Proofs.Mat.Pivots
/-!
# When there is no inverse

`Mat.inverse_fails_iff`: how an inversion ends. A determinant of zero is refused. Where it is not zero, every column that
is cleared has a cell from the diagonal down that is not zero, and the inverse is found as long as doubles tell such a
cell from zero. They do not if all of these cells are rounded to zero: the pivot is then the cell on the diagonal, and the
matrix is refused as singular if that one is zero. A cell that is too large for a double is an overflow.
-/

namespace Reckoner

/-! ## Sizes -/

namespace Gaussian

/-- Whether both parts are rounded to zero. -/
def IsTiny (z : Gaussian) : Prop := |z.re| ≤ Double.underflowBound ∧ |z.im| ≤ Double.underflowBound

end Gaussian

namespace Grid

variable {n : Nat}

/-! ## The largest pivot -/

section Largest

variable {α : Type}

end Largest

/-- Whether the pivot of a column is lost: the cell on the diagonal is zero, and all cells from there down are tiny. -/
def Lost (column : Fin n) (g : Grid n n) : Prop :=
  g.cell column column = 0 ∧ ∀ row, column ≤ row → (g.cell row column).IsTiny

/-- Whether elimination loses the pivot of a column. -/
def LosesPivot (g : Grid n n) : Prop := ∃ s ∈ stages largestPivot (List.finRange n) g, Lost s.1 s.2

/-- Whether the cell is among those that elimination compares. -/
def Compares (g : Grid n n) (z : Gaussian) : Prop :=
  ∃ s ∈ stages largestPivot (List.finRange n) g, ∃ row, s.1 ≤ row ∧ s.2.cell row s.1 = z

/-- The ends of an inversion of a grid with the determinant `d`. -/
structure InversionEnds {α : Type} (g : Grid n n) (d : Gaussian) (result : Outcome α) : Prop where
  singular : result = refuse .singularMatrix ↔ d = 0 ∨ g.LosesPivot
  overflow : result = .error .overflow ↔ d ≠ 0 ∧ ∃ z, g.Compares z ∧ z.IsHuge
  found : (∃ inv, result = .ok inv) ↔ d ≠ 0 ∧ ¬g.LosesPivot ∧ ∀ z, g.Compares z → ¬z.IsHuge
  /-- Every column that is cleared has a pivot. -/
  pivots : d ≠ 0 → ∀ s ∈ stages largestPivot (List.finRange n) g, ∃ row, s.1 ≤ row ∧ s.2.cell row s.1 ≠ 0
  /-- Where doubles can tell the compared cells from zero, only a determinant of zero is refused. -/
  measured : (∀ z, g.Compares z → z = 0 ∨ ¬z.IsTiny ∧ ¬z.IsHuge) →
    (result = refuse .singularMatrix ↔ d = 0) ∧ (d ≠ 0 → ∃ inv, result = .ok inv)

section Inverse

variable {g : Grid n n}

end Inverse

/-- What is made of an inverse ends as the inversion does. -/
theorem InversionEnds.map {α β : Type} {g : Grid n n} {d : Gaussian} {result : Outcome α} (ends : InversionEnds g d result)
    (f : α → β) : InversionEnds g d (result.map f) := by
  have singular : result.map f = refuse .singularMatrix ↔ result = refuse .singularMatrix := Outcome.map_eq_error
  have overflow : result.map f = .error .overflow ↔ result = .error .overflow := Outcome.map_eq_error
  have found : (∃ inv, result.map f = .ok inv) ↔ ∃ inv, result = .ok inv := by
    cases result <;> simp [Except.map]
  refine ⟨singular.trans ends.singular, overflow.trans ends.overflow, found.trans ends.found, ends.pivots, ?_⟩
  rw [singular, found]
  exact ends.measured

end Grid

namespace Mat

end Mat

end Reckoner
