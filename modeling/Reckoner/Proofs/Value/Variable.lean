import Reckoner.Proofs.Expression.Conversion
import Reckoner.Proofs.Poly.Power
/-!
# The variable of a value

No operation brings in a variable of its own: what is computed from values in one variable, and from values without any,
is in that variable. In its simplest kind such a value is a number, a matrix, or a polynomial that is not constant.
-/

namespace Reckoner

/-! ## Polynomials -/

namespace Poly

variable {p q r : Poly} {x : Text}

theorem sharedVar_eq {y : Text} (hp : p.var = x) (hq : q.var = x) (h : p.sharedVar q = .ok y) : y = x := by
  rw [sharedVar, if_pos (.inl (hp.trans hq.symm))] at h
  cases h
  exact hp

theorem add_var (hp : p.var = x) (hq : q.var = x) (h : p.add q = .ok r) : r.var = x := by
  obtain ⟨_, -, h⟩ := Outcome.bind_eq_ok.1 h
  obtain ⟨y, shared, h⟩ := Outcome.bind_eq_ok.1 h
  cases h
  exact sharedVar_eq hp hq shared

theorem neg_var (hp : p.var = x) : p.neg.var = x := hp

theorem mul_var (hp : p.var = x) (hq : q.var = x) (h : p.mul q = .ok r) : r.var = x := by
  obtain ⟨_, -, h⟩ := Outcome.bind_eq_ok.1 h
  obtain ⟨y, shared, h⟩ := Outcome.bind_eq_ok.1 h
  cases h
  exact sharedVar_eq hp hq shared

theorem mapCoeffs_var {f : Coeff → Outcome Coeff} (hp : p.var = x) (h : p.mapCoeffs f = .ok r) : r.var = x := by
  obtain ⟨_, -, h⟩ := Outcome.bind_eq_ok.1 h
  cases h
  exact hp

theorem powerOnto_var {n : Nat} (hp : p.var = x) (hq : q.var = x) (h : powerOnto p q n = .ok r) : r.var = x := by
  induction n using Nat.strongRecOn generalizing p q with
  | ind n ih =>
    by_cases zero : n = 0
    · rw [powerOnto, dif_pos zero] at h
      cases h
      exact hp
    · rw [powerOnto_of_ne_zero p q zero] at h
      obtain ⟨a, accumulated, h⟩ := Outcome.bind_eq_ok.1 h
      obtain ⟨b, squared, h⟩ := Outcome.bind_eq_ok.1 h
      refine ih (n / 2) (by omega) ?_ ?_ h
      · split at accumulated
        · exact mul_var hp hq accumulated
        · cases accumulated
          exact hp
      · split at squared
        · cases squared
          exact hq
        · exact mul_var hq hq squared

theorem power_var {n : Nat} (hp : p.var = x) (h : p.power n = .ok r) : r.var = x :=
  powerOnto_var (show (constant p.var _).var = x from hp) hp h

end Poly

/-! ## Values -/

namespace Value

/-- A value whose variable is `x`, if it has one. -/
def Over (x : Text) (v : Value) : Prop := ∀ p, v = .polynomial p → p.var = x

variable {v w r : Value} {x : Text}

theorem over_number (a : Number) : (number a).Over x := nofun

theorem over_matrix (m : Mat) : (matrix m).Over x := nofun

theorem over_toValue (c : Coeff) : c.toValue.Over x := by
  cases c <;> exact nofun

theorem over_polynomial {p : Poly} (h : p.var = x) : (polynomial p).Over x := by
  rintro _ ⟨⟩
  exact h

theorem over_constant {y : Text} {c : Coeff} (h : y = x) : (polynomial (.constant y c)).Over x := over_polynomial h

theorem Over.toPoly {y : Text} (h : v.Over x) (same : y = x) : (v.toPoly y).var = x := by
  cases v with
  | polynomial p => exact h p rfl
  | _ => exact same

theorem over_of_map {α : Type} {o : Outcome α} {f : α → Value} (h : o.map f = .ok r)
    (each : ∀ a, o = .ok a → (f a).Over x) : r.Over x := by
  obtain ⟨a, ok, rfl⟩ := Outcome.map_eq_ok.1 h
  exact each a ok

/-! ### Operators -/

theorem Over.add (hv : v.Over x) (hw : w.Over x) (h : v.add w = .ok r) : r.Over x := by
  unfold Value.add at h
  split at h
  · exact over_of_map h fun _ sum => over_polynomial (Poly.add_var (hv _ rfl) (hw.toPoly (hv _ rfl)) sum)
  · exact over_of_map h fun _ sum => over_polynomial (Poly.add_var (hv.toPoly (hw _ rfl)) (hw _ rfl) sum)
  · cases h
    exact over_number _
  · exact over_of_map h fun _ _ => over_matrix _
  · cases h
  · cases h

theorem Over.sub (hv : v.Over x) (hw : w.Over x) (h : v.sub w = .ok r) : r.Over x := by
  unfold Value.sub at h
  split at h
  · exact over_of_map h fun _ sum => over_polynomial (Poly.add_var (hv _ rfl) (Poly.neg_var (hw.toPoly (hv _ rfl))) sum)
  · exact over_of_map h fun _ sum => over_polynomial (Poly.add_var (hv.toPoly (hw _ rfl)) (Poly.neg_var (hw _ rfl)) sum)
  · cases h
    exact over_number _
  · exact over_of_map h fun _ _ => over_matrix _
  · cases h
  · cases h

theorem Over.mul (hv : v.Over x) (hw : w.Over x) (h : v.mul w = .ok r) : r.Over x := by
  unfold Value.mul at h
  split at h
  · exact over_of_map h fun _ product => over_polynomial (Poly.mul_var (hv _ rfl) (hw.toPoly (hv _ rfl)) product)
  · exact over_of_map h fun _ product => over_polynomial (Poly.mul_var (hv.toPoly (hw _ rfl)) (hw _ rfl) product)
  · cases h
    exact over_number _
  · exact over_of_map h fun _ _ => over_matrix _
  · cases h
    exact over_matrix _
  · cases h
    exact over_matrix _

theorem Over.neg (hv : v.Over x) : v.neg.Over x := by
  cases v with
  | polynomial p => exact over_polynomial (hv p rfl)
  | _ => exact nofun

theorem over_byPolynomial {c : Coeff} {q : Poly} (hq : q.var = x) (h : divide.byPolynomial v c q = .ok r) :
    r.Over x := by
  unfold divide.byPolynomial at h
  split at h
  · cases h
  · split at h
    · cases h
    · obtain ⟨d, -, h⟩ := Outcome.bind_eq_ok.1 h
      cases h
      exact over_polynomial hq

theorem Over.divide (hv : v.Over x) (hw : w.Over x) (h : v.divide w = .ok r) : r.Over x := by
  unfold Value.divide at h
  split at h
  · obtain ⟨d, -, h⟩ := Outcome.bind_eq_ok.1 h
    obtain ⟨q, quotient, h⟩ := Outcome.bind_eq_ok.1 h
    cases h
    exact over_polynomial (Poly.mapCoeffs_var (hv _ rfl) quotient)
  · exact over_of_map h fun _ _ => over_number _
  · exact over_of_map h fun _ _ => over_matrix _
  · cases h
  · cases h
  · exact over_byPolynomial (hw _ rfl) h
  · exact over_byPolynomial (hw _ rfl) h

theorem Over.modulo (hv : v.Over x) (hw : w.Over x) (h : v.modulo w = .ok r) : r.Over x := by
  unfold Value.modulo at h
  split at h
  · obtain ⟨d, -, h⟩ := Outcome.bind_eq_ok.1 h
    obtain ⟨q, remainder, h⟩ := Outcome.bind_eq_ok.1 h
    cases h
    exact over_polynomial (Poly.mapCoeffs_var (hv _ rfl) remainder)
  · cases h
  · cases h
  · exact over_of_map h fun _ _ => over_number _
  · cases h
  · split at h
    · cases h
    · split at h
      · cases h
      · obtain ⟨c, -, h⟩ := Outcome.bind_eq_ok.1 h
        cases h
        exact over_constant (hw _ rfl)

theorem Over.powerInt (hv : v.Over x) {n : Int} (h : powerInt n v = .ok r) : r.Over x := by
  unfold Value.powerInt at h
  split at h
  · exact over_of_map h fun _ _ => over_number _
  · exact over_of_map h fun _ _ => over_matrix _
  · split at h
    · exact over_of_map h fun _ power => over_polynomial (Poly.power_var (hv _ rfl) power)
    · split at h
      · obtain ⟨c, -, h⟩ := Outcome.bind_eq_ok.1 h
        cases h
        exact over_constant (hv _ rfl)
      · cases h

theorem Over.power (hv : v.Over x) (h : v.power w = .ok r) : r.Over x := by
  unfold Value.power at h
  split at h
  · split at h
    · cases h
    · obtain ⟨n, -, h⟩ := Outcome.bind_eq_ok.1 h
      exact hv.powerInt h
  · obtain ⟨n, -, h⟩ := Outcome.bind_eq_ok.1 h
    exact hv.powerInt h

end Value

theorem Operator.over_of_apply {o : Operator} {v w r : Value} {x : Text} (hv : v.Over x) (hw : w.Over x)
    (h : o.apply v w = .ok r) : r.Over x := by
  cases o with
  | plus => exact hv.add hw h
  | minus => exact hv.sub hw h
  | times | matrixTimes => exact hv.mul hw h
  | divide => exact hv.divide hw h
  | modulo => exact hv.modulo hw h
  | power => exact hv.power h

/-! ### Calls -/

namespace Poly

variable {p : Poly} {v r : Value} {x : Text}

theorem termValue_over {t : Nat × Coeff} (hv : v.Over x) (h : termValue v t = .ok r) : r.Over x := by
  unfold termValue at h
  split at h
  · cases h
    exact Value.over_toValue t.2
  · obtain ⟨w, power, h⟩ := Outcome.bind_eq_ok.1 h
    exact (Value.over_toValue t.2).mul (hv.powerInt power) h

theorem sumTerms_over {ts : Terms} {sum : Value} (hv : v.Over x) (hs : sum.Over x)
    (h : ts.foldlM (fun sum t => do sum.add (← termValue v t)) sum = .ok r) : r.Over x := by
  induction ts generalizing sum with
  | nil =>
    cases h
    exact hs
  | cons t ts ih =>
    rw [List.foldlM_cons] at h
    obtain ⟨next, first, h⟩ := Outcome.bind_eq_ok.1 h
    obtain ⟨w, term, added⟩ := Outcome.bind_eq_ok.1 first
    exact ih (hs.add (termValue_over hv term) added) h

end Poly

namespace Value

variable {v : Value} {x : Text}

/-- A rational number, a complex one that is not real, or a matrix. -/
def Constant : Value → Prop
  | .number (.rational _) => True
  | .number (.complex z) => z.im ≠ 0
  | .matrix _ => True
  | .polynomial _ => False

theorem constant_toValue (c : Coeff) : c.toValue.Constant := by
  cases c with
  | matrix m => trivial
  | scalar z =>
    simp only [Coeff.toValue, Number.ofGaussian]
    split
    · trivial
    · assumption

/-- In its simplest kind a value is a constant, or a polynomial that is not. -/
theorem Over.simplify (h : v.Over x) :
    v.simplify.Constant ∨ ∃ p, v.simplify = .polynomial p ∧ p.var = x ∧ 1 ≤ p.degree := by
  cases v with
  | number a =>
    exact .inl (constant_toValue (.scalar a.toGaussian))
  | matrix m => exact .inl trivial
  | polynomial p =>
    rw [Value.simplify]
    split
    next => exact .inl (constant_toValue _)
    next varies =>
      refine .inr ⟨p, rfl, h p rfl, Nat.one_le_iff_ne_zero.2 fun zero => varies ?_⟩
      rw [Poly.isConstant, zero]
      rfl

theorem over_of_constant (h : v.Constant) (x : Text) : v.Over x := by
  rintro p rfl
  exact h.elim

/-- The simplest kind of a value in `x` is in `x`. -/
theorem Over.simplify_over (h : v.Over x) : v.simplify.Over x := by
  rcases h.simplify with constant | ⟨p, eq, var, -⟩
  · exact over_of_constant constant x
  · exact eq ▸ over_polynomial var

end Value

theorem Poly.eval_over {p : Poly} {v r : Value} {x : Text} (hv : v.Over x) (h : p.eval v = .ok r) : r.Over x := by
  unfold Poly.eval at h
  split at h
  · cases h
    exact Value.over_number _
  · obtain ⟨first, term, h⟩ := Outcome.bind_eq_ok.1 h
    obtain ⟨sum, run, h⟩ := Outcome.bind_eq_ok.1 h
    cases h
    exact (sumTerms_over hv (termValue_over hv term) run).simplify_over

end Reckoner
