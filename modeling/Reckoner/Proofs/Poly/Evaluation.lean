import Reckoner.Proofs.Value.Action
/-!
# How values of polynomials act

The value of a polynomial acts as the sum of the actions of its coefficients, each followed by a power of the action of
what takes the place of the variable. Where that is a number or a matrix, every term of a polynomial that has a value fits
its kind: the coefficient times the power is of the kind of the value.
-/

namespace Reckoner

open Coeff (Kind)

/-! ## Terms -/

namespace Terms

variable {ts : Terms} {t : Nat × Coeff} {z : Gaussian} {k l m : Kind} {A B : Action}

/-- With something of kind `l` in the place of the variable, the term is of kind `m`. -/
def Fits (l m : Kind) (t : Nat × Coeff) : Prop :=
  (t.1 = 0 ∧ t.2.kind = m) ∨ (t.1 ≠ 0 ∧ Kind.mul l l = some l ∧ Kind.mul t.2.kind l = some m)

/-- A term is of the kind of its coefficient if the variable stands for a number. -/
theorem Fits.kind (h : Fits none m t) : t.2.kind = m := by
  rcases h with ⟨-, same⟩ | ⟨-, -, same⟩
  · exact same
  · rw [Kind.mul_none] at same
    exact Option.some.inj same

end Terms

/-! ## Values -/

namespace Poly

open Terms (Fits)

variable {p : Poly} {ts : Terms} {t : Nat × Coeff} {v w r s : Value} {z : Gaussian} {k l m : Kind} {A B : Action}
  {b c d : Coeff}

theorem termValue_acts (hw : w.Acts z l B) (fits : Fits l m t) (h : termValue w t = .ok r) :
    r.Acts z m (t.2.action * B ^ t.1) := by
  have coefficient : t.2.toValue.Acts z t.2.kind t.2.action := Value.acts_of_toCoeff? (Value.toCoeff?_toValue t.2)
  rcases fits with ⟨zero, rfl⟩ | ⟨positive, square, kinds⟩
  · rw [termValue, if_pos zero] at h
    cases h
    rwa [zero, pow_zero, mul_one]
  · rw [termValue, if_neg positive] at h
    obtain ⟨u, power, product⟩ := Outcome.bind_eq_ok.1 h
    exact coefficient.mul (hw.powerInt square positive power) kinds product

theorem fits_of_termValue (hw : w.toCoeff? = some b) (h : termValue w t = .ok r) :
    ∃ c, r.toCoeff? = some c ∧ Fits b.kind c.kind t := by
  by_cases zero : t.1 = 0
  · rw [termValue, if_pos zero] at h
    cases h
    exact ⟨t.2, Value.toCoeff?_toValue t.2, .inl ⟨zero, rfl⟩⟩
  · rw [termValue, if_neg zero] at h
    obtain ⟨u, power, product⟩ := Outcome.bind_eq_ok.1 h
    obtain ⟨d, hu, raised⟩ := Value.toCoeff?_powerInt hw power
    obtain ⟨kind, square⟩ := Value.kind_coeffPower raised
    obtain ⟨c, hr, product⟩ := Value.toCoeff?_mul (Value.toCoeff?_toValue t.2) hu product
    refine ⟨c, hr, .inr ⟨zero, square, ?_⟩⟩
    rw [← kind]
    exact Coeff.kind_mul product

/-! ### Sums -/

theorem sumTerms_acts (hw : w.Acts z l B) (fits : ∀ t ∈ ts, Fits l m t) (hs : s.Acts z m A)
    (h : ts.foldlM (fun sum t => do sum.add (← termValue w t)) s = .ok r) : r.Acts z m (A + ts.composed B) := by
  induction ts generalizing s A with
  | nil =>
    cases h
    rwa [show Terms.composed [] B = 0 from rfl, add_zero]
  | cons t ts ih =>
    obtain ⟨first, later⟩ := List.forall_mem_cons.1 fits
    rw [List.foldlM_cons] at h
    obtain ⟨u, step, h⟩ := Outcome.bind_eq_ok.1 h
    obtain ⟨e, term, sum⟩ := Outcome.bind_eq_ok.1 step
    rw [Terms.composed_cons, ← add_assoc]
    exact ih later (hs.add (termValue_acts hw first term) sum) h

theorem fits_of_sumTerms (hw : w.toCoeff? = some b) (hs : s.toCoeff? = some c)
    (h : ts.foldlM (fun sum t => do sum.add (← termValue w t)) s = .ok r) :
    ∃ d, r.toCoeff? = some d ∧ c.kind = d.kind ∧ ∀ t ∈ ts, Fits b.kind d.kind t := by
  induction ts generalizing s c with
  | nil =>
    cases h
    exact ⟨c, hs, rfl, List.forall_mem_nil _⟩
  | cons t ts ih =>
    rw [List.foldlM_cons] at h
    obtain ⟨u, step, h⟩ := Outcome.bind_eq_ok.1 h
    obtain ⟨e, term, sum⟩ := Outcome.bind_eq_ok.1 step
    obtain ⟨a, ha, first⟩ := fits_of_termValue hw term
    obtain ⟨o, ho, sum⟩ := Value.toCoeff?_add hs ha sum
    obtain ⟨d, hr, kind, later⟩ := ih ho h
    obtain ⟨left, right⟩ := Coeff.kind_add sum
    refine ⟨d, hr, left.trans kind, List.forall_mem_cons.2 ⟨?_, later⟩⟩
    rwa [← kind, ← right]

/-! ### Polynomials -/

/-- The value is the simplest kind of something that acts as the composition. -/
theorem eval_acts (hw : w.Acts z l B) (fits : ∀ t ∈ p.terms, Fits l m t) (h : p.eval w = .ok r) :
    ∃ s : Value, r = s.simplify ∧ s.Acts z m (p.terms.composed B) := by
  have fits : ∀ t ∈ p.terms.reverse, Fits l m t := fun t mem => fits t (List.mem_reverse.1 mem)
  rw [Poly.eval] at h
  rw [← Terms.composed_reverse]
  generalize p.terms.reverse = ts at fits h ⊢
  cases ts with
  | nil =>
    cases h
    exact ⟨.polynomial (.ofTerms [] []), rfl, .nil⟩
  | cons t ts =>
    obtain ⟨first, later⟩ := List.forall_mem_cons.1 fits
    obtain ⟨u, term, h⟩ := Outcome.bind_eq_ok.1 h
    obtain ⟨s, run, h⟩ := Outcome.bind_eq_ok.1 h
    cases h
    exact ⟨s, rfl, sumTerms_acts hw later (termValue_acts hw first term) run⟩

/-- At a number or a matrix the value is a number or a matrix, every term fits it, and it acts as the composition. -/
theorem eval_coefficient (hw : w.toCoeff? = some b) (h : p.eval w = .ok r) :
    ∃ d, r.toCoeff? = some d ∧ (∀ t ∈ p.terms, Fits b.kind d.kind t) ∧ d.action = p.terms.composed b.action := by
  have fits : ∃ d, r.toCoeff? = some d ∧ ∀ t ∈ p.terms, Fits b.kind d.kind t := by
    rw [Poly.eval] at h
    suffices ∃ d, r.toCoeff? = some d ∧ ∀ t ∈ p.terms.reverse, Fits b.kind d.kind t by
      simpa only [List.mem_reverse] using this
    generalize p.terms.reverse = ts at h ⊢
    cases ts with
    | nil =>
      cases h
      exact ⟨_, rfl, List.forall_mem_nil _⟩
    | cons t ts =>
      obtain ⟨u, term, h⟩ := Outcome.bind_eq_ok.1 h
      obtain ⟨s, run, h⟩ := Outcome.bind_eq_ok.1 h
      cases h
      obtain ⟨c, hu, first⟩ := fits_of_termValue hw term
      obtain ⟨d, hs, kind, later⟩ := fits_of_sumTerms hw hu run
      exact ⟨d, Value.toCoeff?_simplify hs, List.forall_mem_cons.2 ⟨kind ▸ first, later⟩⟩
  obtain ⟨d, hr, fits⟩ := fits
  refine ⟨d, hr, fits, ?_⟩
  obtain ⟨s, rfl, acts⟩ := eval_acts (Value.acts_of_toCoeff? (z := 0) hw) fits h
  rcases acts.simplify with acts | ⟨-, rational, zero⟩
  · exact ((Value.acts_iff hr).1 acts).2
  · rw [rational] at hr
    cases hr
    rw [zero]
    exact zero_smul Gaussian (1 : Action)

/-- A polynomial acts at a number as its value there, and is of the kind of the value. -/
theorem acts_of_eval {x : Number} (h : p.eval (.number x) = .ok r) :
    ∃ d, r.toCoeff? = some d ∧ p.Acts x.toGaussian d.kind d.action := by
  obtain ⟨d, hr, fits, action⟩ := eval_coefficient (b := .scalar x.toGaussian) rfl h
  exact ⟨d, hr, fun t mem => (fits t mem).kind, action.symm⟩

end Poly

end Reckoner
