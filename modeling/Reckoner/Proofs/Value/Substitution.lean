import Reckoner.Proofs.Value.Power
/-!
# Substitution

What an operator makes of polynomials and then is taken at some point is what it makes of them at that point: sums, products,
quotients and powers commute with substitution, and so do calls of functions. Remainders do not, and neither does what is
computed with matrices.
-/

namespace Reckoner

open Polynomial

/-! ## Polynomials -/

namespace Terms.Expands

variable {ts : Terms} {f : Gaussian[X]}

/-- The terms as powers and numbers, of which the polynomial is the sum. -/
theorem exists_numbers (h : Expands ts f) : ∃ zs : List (Nat × Gaussian),
    ts = zs.map (fun t => (t.1, .scalar t.2)) ∧ f = (zs.map fun t => monomial t.1 t.2).sum := by
  induction h with
  | nil => exact ⟨[], rfl, rfl⟩
  | @cons n z rest f _ _ ih =>
    obtain ⟨zs, rfl, rfl⟩ := ih
    exact ⟨(n, z) :: zs, rfl, rfl⟩

end Terms.Expands

namespace Poly

variable {p : Poly} {v : Value} {x y : Text} {f g : Gaussian[X]}

theorem termValue_denotes (hv : v.Denotes x g) (n : Nat) (z : Gaussian) :
    ∃ r, termValue v (n, .scalar z) = .ok r ∧ r.Denotes x (C z * g ^ n) := by
  have coefficient : (Coeff.scalar z).toValue.Denotes x (C z) := Value.Denotes.number_ofGaussian z
  by_cases zero : n = 0
  · subst zero
    exact ⟨_, if_pos rfl, by simpa using coefficient⟩
  · obtain ⟨w, power, hw⟩ := hv.powerInt_of_nonneg (Int.natCast_nonneg n)
    obtain ⟨r, product, hr⟩ := coefficient.mul hw
    refine ⟨r, ?_, hr⟩
    rw [termValue, if_neg zero, power]
    exact product

theorem sumTerms_denotes (hv : v.Denotes x g) {sum : Value} (hs : sum.Denotes x f) (zs : List (Nat × Gaussian)) :
    ∃ r, (zs.map fun t => (t.1, Coeff.scalar t.2)).foldlM (fun sum t => do sum.add (← termValue v t)) sum = .ok r ∧
      r.Denotes x (f + (zs.map fun t => C t.2 * g ^ t.1).sum) := by
  induction zs generalizing sum f with
  | nil => exact ⟨sum, rfl, by simpa using hs⟩
  | cons t zs ih =>
    obtain ⟨w, term, hw⟩ := termValue_denotes hv t.1 t.2
    obtain ⟨next, added, hn⟩ := hs.add hw
    obtain ⟨r, run, hr⟩ := ih hn
    refine ⟨r, ?_, ?_⟩
    · rw [List.map_cons, List.foldlM_cons, term]
      exact Outcome.bind_eq_ok.2 ⟨next, added, run⟩
    · rwa [List.map_cons, List.sum_cons, ← add_assoc]

/-- A polynomial taken at a value stands for the composition, in its simplest kind. -/
theorem Denotes.eval (hp : p.Denotes y f) (hv : v.Denotes x g) :
    ∃ r : Value, r.Denotes x (f.comp g) ∧ p.eval v = .ok r.simplify := by
  obtain ⟨zs, terms, rfl⟩ := hp.expands.exists_numbers
  have composed : (zs.map fun t => monomial t.1 t.2).sum.comp g = (zs.reverse.map fun t => C t.2 * g ^ t.1).sum := by
    rw [List.map_reverse, List.sum_reverse, ← coe_compRingHom_apply, map_list_sum, List.map_map]
    simp [Function.comp_def]
  rw [composed, Poly.eval, terms, ← List.map_reverse]
  cases zs.reverse with
  | nil =>
    refine ⟨Value.rational 0, ?_, rfl⟩
    show (0 : Gaussian[X]) = C 0
    rw [C_0]
  | cons t zs =>
    obtain ⟨first, term, hf⟩ := termValue_denotes hv t.1 t.2
    obtain ⟨r, run, hr⟩ := sumTerms_denotes hv hf zs
    refine ⟨r, by simpa using hr, ?_⟩
    simp only [List.map_cons, term]
    exact Outcome.bind_eq_ok.2 ⟨first, rfl, Outcome.bind_eq_ok.2 ⟨r, run, rfl⟩⟩

end Poly

/-! ## Values -/

/-- What stands for an element, and what stands for the same element with `k` put in the place of the unknown. -/
def Value.Substituted (x : Text) (k : Gaussian[X]) (v w : Value) : Prop := ∃ f, v.Denotes x f ∧ w.Denotes x (f.comp k)

namespace Value.Substituted

variable {v v' w w' r : Value} {x : Text} {k : Gaussian[X]}

theorem of_constant {c : Gaussian} (hv : v.Denotes x (C c)) : Substituted x k v v := ⟨C c, hv, by rwa [C_comp]⟩

theorem neg (h : Substituted x k v w) : Substituted x k v.neg w.neg := by
  obtain ⟨f, hv, hw⟩ := h
  exact ⟨-f, hv.neg, by rw [neg_comp]; exact hw.neg⟩

/-- An operation that is exact and that substitution commutes with. -/
theorem combine {operation : Value → Value → Outcome Value} {ideal : Gaussian[X] → Gaussian[X] → Gaussian[X]}
    (exact : ∀ {v w f g}, Value.Denotes v x f → Value.Denotes w x g → ∃ r, operation v w = .ok r ∧ r.Denotes x (ideal f g))
    (commutes : ∀ f g, (ideal f g).comp k = ideal (f.comp k) (g.comp k)) (hv : Substituted x k v v')
    (hw : Substituted x k w w') (h : operation v w = .ok r) : ∃ r', operation v' w' = .ok r' ∧ Substituted x k r r' := by
  obtain ⟨f, hv, hv'⟩ := hv
  obtain ⟨g, hw, hw'⟩ := hw
  obtain ⟨s, run, hs⟩ := exact hv hw
  obtain ⟨s', run', hs'⟩ := exact hv' hw'
  cases run.symm.trans h
  exact ⟨s', run', ideal f g, hs, by rwa [commutes]⟩

/-- A divisor that is accepted is a constant other than zero, and stays one. -/
theorem divide (hv : Substituted x k v v') (hw : Substituted x k w w') (h : v.divide w = .ok r) :
    ∃ r', v'.divide w' = .ok r' ∧ Substituted x k r r' := by
  obtain ⟨f, hv, hv'⟩ := hv
  obtain ⟨g, hw, hw'⟩ := hw
  rcases Nat.eq_zero_or_pos g.natDegree with constant | degree
  · obtain ⟨c, rfl⟩ := natDegree_eq_zero.1 constant
    by_cases zero : c = 0
    · subst zero
      rw [C_0] at hw
      rw [hv.divide_zero hw] at h
      cases h
    · rw [C_comp] at hw'
      obtain ⟨s, run, hs⟩ := hv.divide_constant hw zero
      obtain ⟨s', run', hs'⟩ := hv'.divide_constant hw' zero
      cases run.symm.trans h
      exact ⟨s', run', f * C c⁻¹, hs, by rwa [mul_comp, C_comp]⟩
  · obtain ⟨e, -, refused⟩ := hv.divide_polynomial hw degree
    rw [refused] at h
    cases h

theorem powerInt (hv : Substituted x k v v') {n : Int} (h : powerInt n v = .ok r) :
    ∃ r', Value.powerInt n v' = .ok r' ∧ Substituted x k r r' := by
  obtain ⟨f, hv, hv'⟩ := hv
  rcases hv.of_powerInt h with sign | ⟨c, nonzero, rfl⟩
  · obtain ⟨s, run, hs⟩ := hv.powerInt_of_nonneg sign
    obtain ⟨s', run', hs'⟩ := hv'.powerInt_of_nonneg sign
    cases run.symm.trans h
    exact ⟨s', run', f ^ n.toNat, hs, by rwa [pow_comp]⟩
  · rw [C_comp] at hv'
    obtain ⟨s, run, hs⟩ := hv.powerInt_constant nonzero n
    obtain ⟨s', run', hs'⟩ := hv'.powerInt_constant nonzero n
    cases run.symm.trans h
    exact ⟨s', run', C (c ^ n), hs, by rwa [C_comp]⟩

/-- An exponent that is accepted is an integer, and stays the same. -/
theorem power (hv : Substituted x k v v') (hw : Substituted x k w w') (h : v.power w = .ok r) :
    ∃ r', v'.power w' = .ok r' ∧ Substituted x k r r' := by
  obtain ⟨g, hw, hw'⟩ := hw
  have denotes : ∃ f, v.Denotes x f := ⟨_, hv.choose_spec.1⟩
  have denotes' : ∃ f, v'.Denotes x f := ⟨_, hv.choose_spec.2⟩
  obtain ⟨f, hf⟩ := denotes
  obtain ⟨f', hf'⟩ := denotes'
  rw [hf.power_eq, Outcome.bind_eq_ok] at h
  obtain ⟨n, taken, run⟩ := h
  obtain rfl := hw.exponent_eq_ok.1 taken
  rw [C_comp] at hw'
  obtain ⟨r', run', hr⟩ := hv.powerInt run
  refine ⟨r', ?_, hr⟩
  rw [hf'.power_eq, hw'.exponent_eq_ok.2 rfl]
  exact run'

end Value.Substituted

/-- Every operator but the remainder commutes with substitution. -/
theorem Operator.apply_substituted {o : Operator} (noRemainder : o ≠ .modulo) {v v' w w' r : Value} {x : Text}
    {k : Gaussian[X]} (hv : Value.Substituted x k v v') (hw : Value.Substituted x k w w') (h : o.apply v w = .ok r) :
    ∃ r', o.apply v' w' = .ok r' ∧ Value.Substituted x k r r' := by
  cases o with
  | plus => exact hv.combine Value.Denotes.add (fun _ _ => add_comp) hw h
  | minus => exact hv.combine Value.Denotes.sub (fun _ _ => sub_comp) hw h
  | times | matrixTimes => exact hv.combine Value.Denotes.mul (fun _ _ => mul_comp _ _ _) hw h
  | divide => exact hv.divide hw h
  | modulo => exact absurd rfl noRemainder
  | power => exact hv.power hw h

/-! ## Functions -/

namespace NamedFunction

variable {f : NamedFunction} {x : Text} {v w r : Value}

/-- A function whose body is a number or has numbers as coefficients has a value wherever there is an element. -/
theorem eval_denotes (scalar : f.body.IsScalar f.parameter) : ∃ F : Gaussian[X], ∀ {x v g}, Value.Denotes v x g →
    ∃ r, f.eval v = .ok r ∧ r.Denotes x (F.comp g) := by
  obtain ⟨name, parameter, body⟩ := f
  cases body with
  | matrix m => cases scalar
  | number a => exact ⟨C a.toGaussian, fun _ => ⟨.number a, rfl, C_comp⟩⟩
  | polynomial p =>
    obtain ⟨F, denotes⟩ := Poly.exists_denotes scalar.2
    refine ⟨F, fun hv => ?_⟩
    obtain ⟨r, hr, run⟩ := denotes.eval hv
    exact ⟨r.simplify, run, hr.simplify⟩

/-- Calls commute with substitution. -/
theorem eval_substituted (scalar : f.body.IsScalar f.parameter) {k : Gaussian[X]} (hv : Value.Substituted x k v w)
    (h : f.eval v = .ok r) : ∃ r', f.eval w = .ok r' ∧ Value.Substituted x k r r' := by
  obtain ⟨F, value⟩ := eval_denotes scalar
  obtain ⟨g, hv, hw⟩ := hv
  obtain ⟨s, run, hs⟩ := value hv
  obtain ⟨s', run', hs'⟩ := value hw
  cases run.symm.trans h
  exact ⟨s', run', F.comp g, hs, by rwa [comp_assoc]⟩

end NamedFunction

end Reckoner
