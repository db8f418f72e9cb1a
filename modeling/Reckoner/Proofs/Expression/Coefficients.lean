import Reckoner.Proofs.Expression.Evaluation
import Reckoner.Proofs.Poly.Evaluation
/-!
# Expressions without polynomials

Polynomials come into an expression through names only: functions at numbers and matrices give numbers and matrices, and so
do the operators.
-/

namespace Reckoner

theorem Postfix.exists_toCoeff?_matrixValue {scope : Scope} {literal : Text} {v : Value}
    (h : matrixValue scope literal = .ok v) : ∃ c, v.toCoeff? = some c := by
  obtain ⟨rows, -, h⟩ := Outcome.bind_eq_ok.1 h
  obtain ⟨cells, -, h⟩ := Outcome.bind_eq_ok.1 h
  obtain ⟨m, -, h⟩ := Outcome.bind_eq_ok.1 h
  cases h
  exact ⟨_, rfl⟩

/-- At a number or a matrix a function has a number or a matrix as value. -/
theorem NamedFunction.exists_toCoeff?_eval {f : NamedFunction} {v r : Value} (hv : ∃ c, v.toCoeff? = some c)
    (h : f.eval v = .ok r) : ∃ c, r.toCoeff? = some c := by
  obtain ⟨c, hv⟩ := hv
  obtain ⟨name, parameter, body⟩ := f
  cases body with
  | polynomial p =>
    obtain ⟨d, hr, -⟩ := Poly.eval_coefficient hv h
    exact ⟨d, hr⟩
  | _ =>
    cases h
    exact ⟨_, rfl⟩

/-- An expression in which no name stands for a polynomial is worth a number or a matrix, even before it is simplified. -/
theorem Expression.exists_toCoeff?_of_evalWith {scope : Scope} {source : Text} {e : Expression} {v : Value}
    (values : ∀ name w, scope.value? name = some w → ∃ c, w.toCoeff? = some c)
    (h : e.evalWith (scope.meaning (Postfix.matrixValue scope) source) = .ok v) : ∃ c, v.toCoeff? = some c := by
  refine evalWith_preserves (P := fun v => ∃ c, v.toCoeff? = some c) ?_ ?_ ?_ ?_ h
  · intro o m _ a value
    cases o with
    | number | imaginary =>
      obtain ⟨q, -, rfl⟩ := Outcome.map_eq_ok.1 value
      exact ⟨_, rfl⟩
    | matrix => exact Postfix.exists_toCoeff?_matrixValue value
    | identifier =>
      simp only [Scope.meaning, Scope.operandValue] at value
      split at value
      next found =>
        cases value
        exact values _ _ found
      · cases value
  · intro m _ a b ha value
    simp only [Scope.meaning, Scope.callValue] at value
    split at value
    · exact NamedFunction.exists_toCoeff?_eval ha value
    · cases value
  · rintro a b ⟨c, coeff⟩ value
    cases value
    exact ⟨_, Value.toCoeff?_neg coeff⟩
  · intro o t a b r ha hb value
    exact Value.exists_toCoeff?_apply ha hb value

end Reckoner
