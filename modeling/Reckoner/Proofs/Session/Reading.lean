import Reckoner.Proofs.Expression.Writing
import Reckoner.Proofs.Session.Showing
/-!
# Reading shown values back

What is shown of a number or a matrix can be typed in again: it is an expression without names, and has a value in every
session. Main statement: that value is the one that was shown, unless an imaginary part is shown as a fraction. After a
fraction the imaginary unit belongs to the denominator, so that such a part changes its sign.
-/

namespace Reckoner

/-! ## Shown values -/

namespace Settings

open Rational

variable (s : Settings)

/-- The value that the text of a number or a matrix stands for. The cells of a matrix are shown exactly. -/
def reread : Value → Value
  | .number x => .number (.ofGaussian (x.toGaussian.reread s.showsFraction))
  | .matrix m => .matrix (m.map (.reread fun q => !isInteger q))
  | v => v

/-- No imaginary part is shown as a fraction. -/
def NoImaginaryFraction : Value → Prop
  | .number x => s.showsFraction x.toGaussian.im = false
  | .matrix m => ∀ i j, isInteger (m.grid.cell i j).im = true
  | .polynomial _ => True

/-- A value is read back as itself just if no imaginary part is shown as a fraction. -/
theorem same_reread_iff {v : Value} (kind : ∀ p, v ≠ .polynomial p) :
    (s.reread v).same v = true ↔ s.NoImaginaryFraction v := by
  cases v with
  | number x =>
    rw [reread, Value.same, Number.same, Number.toGaussian_ofGaussian, beq_iff_eq,
      Gaussian.reread_eq_self_iff s.renders_showPart]
    rfl
  | matrix m =>
    rw [reread, Value.same, beq_iff_eq, Mat.map_eq_self_iff]
    refine forall_congr' fun i => forall_congr' fun j => ?_
    rw [Gaussian.reread_eq_self_iff renders_text, Bool.not_eq_false']
  | polynomial p => exact absurd rfl (kind p)

end Settings

/-! ## Evaluation -/

namespace Environment

variable (env : Environment) (bindings : List (Text × Value))

/-- An expression whose brackets match and that has no names is evaluated. -/
theorem outcome_eval {t source : Text} {p : Postfix} {v : Value} (brackets : Line.Balanced t) (units : Line.LoneUnits t)
    (squeezed : Text.squeeze t = t) (parsed : Postfix.parse t source = .ok p)
    (value : p.eval (env.scope bindings) = .ok v) : (env.eval t source bindings).outcome = .ok v := by
  have noNames : Line.names t = [] := units.names squeezed
  have named : env.checkNames t source (bindings.map (·.1)) = .ok () := by
    simp [checkNames, Line.variableNames, Line.functionNames, noNames, Text.distinct]
  simp only [eval, brackets.checkBrackets source, named, parsed]
  exact value

/-- The text of a number or a matrix is evaluated as the value that it stands for. -/
theorem outcome_eval_form (s : Settings) (source : Text) {v : Value} (kind : ∀ p, v ≠ .polynomial p) :
    (env.eval (s.form v) source bindings).outcome = .ok (s.reread v) := by
  cases v with
  | number x =>
    have renders := s.renders_showPart
    obtain ⟨p, parsed, value⟩ := Postfix.parse_textWith renders x.toGaussian source
    exact env.outcome_eval bindings (Line.balanced_textWith renders _) (Line.loneUnits_textWith renders _)
      (Line.squeeze_textWith renders _) parsed (value _ _)
  | matrix m =>
    obtain ⟨p, parsed, value⟩ := Postfix.parse_matrixText m source
    exact env.outcome_eval bindings m.balanced_text m.loneUnits_text m.squeeze_text parsed (value _)
  | polynomial p => exact absurd rfl (kind p)

end Environment

namespace Display

/-- What is shown of a number or a matrix is read back in every session, as the value itself just if no imaginary part
is shown as a fraction. It can be shown if the numerals of its text are short enough. -/
theorem shown_reread (s : Settings) (env : Environment) (bindings : List (Text × Value)) (source : Text) {v : Value}
    (kind : ∀ p, v ≠ .polynomial p) :
    ∃ shown, (ofSettings s).showValue v = .written (s.writes v) shown ∧
      (v.isWritable = true → s.decimalPlaces ≤ Text.longestNumeral → s.writes v = true) ∧
        (env.eval shown source bindings).outcome = .ok (s.reread v) ∧
          ((s.reread v).same v = true ↔ s.NoImaginaryFraction v) :=
  ⟨s.form v, (showValue_ofSettings s v).trans (s.showValue_eq v), fun short few => s.writes_of_isWritable few short,
    env.outcome_eval_form bindings s source kind, s.same_reread_iff kind⟩

/-- A half less three quarters of the unit are shown as decimals, and so read back as themselves. -/
theorem shown_reread_quarters :
    (∀ p, Value.complex ⟨1 / 2, -3 / 4⟩ ≠ .polynomial p) ∧ (Value.complex ⟨1 / 2, -3 / 4⟩).isWritable = true ∧
      ({} : Settings).decimalPlaces ≤ Text.longestNumeral ∧
        ∃ shown, (ofSettings {}).showValue (.complex ⟨1 / 2, -3 / 4⟩) = .ok shown ∧
          (({} : Environment).eval shown [] []).outcome = .ok (Settings.reread {} (.complex ⟨1 / 2, -3 / 4⟩)) ∧
            ((Settings.reread {} (.complex ⟨1 / 2, -3 / 4⟩)).same (.complex ⟨1 / 2, -3 / 4⟩) = true ↔
              Settings.NoImaginaryFraction {} (.complex ⟨1 / 2, -3 / 4⟩)) := by
  have short : (Value.complex ⟨1 / 2, -3 / 4⟩).isWritable = true := by decide +kernel
  have few : ({} : Settings).decimalPlaces ≤ Text.longestNumeral := by decide +kernel
  obtain ⟨shown, written, writes, read⟩ := shown_reread {} {} [] [] (v := .complex ⟨1 / 2, -3 / 4⟩) nofun
  rw [writes short few] at written
  exact ⟨nofun, short, few, shown, written, read⟩

/-- A third of the unit is read back as its opposite. -/
theorem thirdOfUnit_reread :
    (Value.complex ⟨0, 1 / 3⟩).simplify = .complex ⟨0, 1 / 3⟩ ∧
      (ofSettings {}).showValue (.complex ⟨0, 1 / 3⟩) = .ok "1/3i".toList ∧
        (({} : Environment).eval "1/3i".toList "1/3i".toList []).outcome = .ok (.complex ⟨0, -1 / 3⟩) ∧
          (Value.complex ⟨0, -1 / 3⟩).same (.complex ⟨0, 1 / 3⟩) = false := by
  decide +kernel

end Display

end Reckoner
