import Reckoner.Proofs.Poly.Evaluation
import Reckoner.Proofs.Session.Reachable
/-!
# Functions are combined pointwise

A combination of functions has at a number the value that comes of combining the values of the functions there. A polynomial
that has no terms left has forgotten the shape of its coefficients: its value is a zero where the combination of the values
is a matrix of zeros. For the same reason the power with the exponent zero is a one and no identity matrix.
-/

namespace Reckoner

open Coeff (Kind)

namespace NamedFunction

/-! ## Values at a number -/

section Values

variable {f g h : NamedFunction} {v : Number} {a b r C : Value} {c d : Coeff} {k : Kind} {A : Action}

/-- A function whose body is no polynomial is constant. -/
theorem eval_of_toCoeff? (plain : f.body.toCoeff? = some c) (u : Value) : f.eval u = .ok f.body := by
  obtain ⟨x, body, -⟩ | ⟨m, body, -⟩ := Value.toCoeff?_eq_some plain <;> rw [NamedFunction.eval, body]

/-- The value of a function at a number is a number or a matrix, and the body acts as it there. -/
theorem acts_of_eval (h : f.eval (.number v) = .ok r) :
    ∃ c, r.toCoeff? = some c ∧ f.body.Acts v.toGaussian c.kind c.action := by
  rcases f.body.toCoeff?_or_polynomial with ⟨c, plain⟩ | ⟨p, body⟩
  · rw [eval_of_toCoeff? plain] at h
    cases h
    exact ⟨c, plain, Value.acts_of_toCoeff? plain⟩
  · rw [NamedFunction.eval, body] at h
    rw [body]
    exact Poly.acts_of_eval h

theorem make_simplify (name parameter : Text) (v : Value) : make name parameter v.simplify = make name parameter v := by
  rw [make, make, Value.simplify_simplify]

/-- A body that has cancelled to zero has at a number the value zero, whatever the shape of the matrix of zeros that it
should have. -/
def ShapeLost (h : NamedFunction) (b : Value) : Prop := h.body = Value.rational 0 ∧ ∃ m, b = .matrix m ∧ m.isZero = true

/-- A body that is one should have an identity matrix as value. -/
def UnitLost (h : NamedFunction) (b : Value) : Prop :=
  h.body = Value.rational 1 ∧ ∃ size m, Mat.identity size = .ok m ∧ b = .matrix m

/-- What is made of a body that acts at a number as a value is equal to the value there, unless it has no terms. -/
theorem same_or_empty (hC : C.Acts v.toGaussian c.kind c.action) (hb : b.toCoeff? = some c) {name parameter : Text}
    (made : make name parameter C = .ok h) (value : h.eval (.number v) = .ok a) :
    a.same b = true ∨ ((∃ p, C = .polynomial p ∧ p.terms = []) ∧ ShapeLost h b) := by
  obtain rfl := make_eq_ok made
  obtain ⟨d, ha, acts⟩ := acts_of_eval value
  rcases hC.simplify with same | ⟨empty, rational, zero⟩
  · left
    obtain ⟨action, kind⟩ := acts.unique same
    rcases kind with kind | ⟨p, simplest, terms⟩
    · obtain rfl : d = c := Coeff.eq_of_action kind action
      exact Value.same_of_toCoeff? ha hb
    · exact absurd terms (Value.terms_of_simplify simplest)
  · have value : Value.rational 0 = a := by
      simp only [NamedFunction.eval, rational] at value
      exact Except.ok.inj value
    obtain ⟨x, rfl, rfl⟩ | ⟨m, rfl, rfl⟩ := Value.toCoeff?_eq_some hb
    · left
      have number : Coeff.scalar 0 = .scalar x.toGaussian := by
        refine Coeff.eq_of_action rfl ?_
        rw [zero]
        exact zero_smul Gaussian (1 : Action)
      subst value
      exact beq_iff_eq.2 (Coeff.scalar.inj number)
    · exact .inr ⟨empty, rational, m, rfl, Coeff.isZero_of_action zero⟩

/-- A body that is no polynomial is the value, and what is made of it is equal to it. -/
theorem same_of_simplify {raise : Value → Outcome Value} (plain : f.body.toCoeff? = some c)
    (stays : ∀ {r}, raise f.body = .ok r → ∃ d, r.toCoeff? = some d) {name parameter : Text}
    (made : (do make name parameter (← raise f.body)) = .ok h) (value : h.eval (.number v) = .ok a)
    (pointwise : (do raise (← f.eval (.number v))) = .ok b) : a.same b = true := by
  rw [eval_of_toCoeff? plain] at pointwise
  obtain ⟨r, raised, made⟩ := Outcome.bind_eq_ok.1 made
  obtain rfl : r = b := Except.ok.inj (raised.symm.trans pointwise)
  obtain ⟨d, hd⟩ := stays raised
  rcases same_or_empty (Value.acts_of_toCoeff? hd) hd made value with equal | ⟨⟨p, rfl, -⟩, -⟩
  · exact equal
  · cases hd

end Values

/-! ## Combinations -/

/-- Where a function is computed and has a value at a number, and another outcome is a value as well, the two values are
equal, or the function is an exception. -/
def AgreesAt (v : Number) (combined : Outcome NamedFunction) (pointwise : Outcome Value)
    (exception : NamedFunction → Value → Prop) : Prop :=
  ∀ h a b, combined = .ok h → h.eval (.number v) = .ok a → pointwise = .ok b → a.same b = true ∨ exception h b

/-- The combinations of two functions at a number, and those of their values there. -/
structure Pointwise (f g : NamedFunction) (v : Number) : Prop where
  sum : AgreesAt v (f.add g) (do (← f.eval (.number v)).add (← g.eval (.number v))) ShapeLost
  difference : AgreesAt v (f.sub g) (do (← f.eval (.number v)).sub (← g.eval (.number v))) ShapeLost
  product : AgreesAt v (f.mul g) (do (← f.eval (.number v)).mul (← g.eval (.number v))) ShapeLost
  quotient : AgreesAt v (f.divide g) (do (← f.eval (.number v)).divide (← g.eval (.number v))) ShapeLost
  negation : AgreesAt v f.neg (do return (← f.eval (.number v)).neg) fun _ _ => False
  power : ∀ (shown : Text) (n : Int), AgreesAt v (f.power shown (Value.powerInt n))
    (do Value.powerInt n (← f.eval (.number v))) fun h b => ShapeLost h b ∨ (n = 0 ∧ UnitLost h b)
  composition : AgreesAt v (f.compose g) (do f.eval (← g.eval (.number v))) ShapeLost

variable {f g : NamedFunction} {v : Number}

/-- An operation that acts on bodies as it does on values. -/
theorem agreesAt_combine (mark : Char) {operation : Value → Value → Outcome Value}
    (acts : ∀ {b₁ b₂ b F G C : Value} {c₁ c₂ : Coeff}, b₁.toCoeff? = some c₁ → b₂.toCoeff? = some c₂ →
      F.Acts v.toGaussian c₁.kind c₁.action → G.Acts v.toGaussian c₂.kind c₂.action → operation b₁ b₂ = .ok b →
      operation F G = .ok C → ∃ c, b.toCoeff? = some c ∧ C.Acts v.toGaussian c.kind c.action) :
    AgreesAt v (combine mark operation f g) (do operation (← f.eval (.number v)) (← g.eval (.number v))) ShapeLost := by
  intro h a b combined value pointwise
  obtain ⟨b₁, left, pointwise⟩ := Outcome.bind_eq_ok.1 pointwise
  obtain ⟨b₂, right, pointwise⟩ := Outcome.bind_eq_ok.1 pointwise
  obtain ⟨c₁, h₁, acts₁⟩ := acts_of_eval left
  obtain ⟨c₂, h₂, acts₂⟩ := acts_of_eval right
  unfold combine withSameParameter at combined
  split at combined
  · obtain ⟨C, run, made⟩ := Outcome.bind_eq_ok.1 combined
    obtain ⟨c, hb, hC⟩ := acts h₁ h₂ acts₁ acts₂ pointwise run
    exact (same_or_empty hC hb made value).imp id And.right
  · cases combined

theorem agreesAt_add : AgreesAt v (f.add g) (do (← f.eval (.number v)).add (← g.eval (.number v))) ShapeLost := by
  refine agreesAt_combine '+' fun h₁ h₂ hF hG pointwise run => ?_
  obtain ⟨c, hb, sum⟩ := Value.toCoeff?_add h₁ h₂ pointwise
  obtain ⟨left, right⟩ := Coeff.kind_add sum
  refine ⟨c, hb, ?_⟩
  rw [Coeff.action_add sum]
  rw [left] at hF
  rw [right] at hG
  exact hF.add hG run

theorem agreesAt_sub : AgreesAt v (f.sub g) (do (← f.eval (.number v)).sub (← g.eval (.number v))) ShapeLost := by
  refine agreesAt_combine '-' fun {_ _ _ _ _ _ _ c₂} h₁ h₂ hF hG pointwise run => ?_
  obtain ⟨c, hb, sum⟩ := Value.toCoeff?_sub h₁ h₂ pointwise
  obtain ⟨left, right⟩ := Coeff.kind_add sum
  refine ⟨c, hb, ?_⟩
  rw [Coeff.action_add sum, Coeff.action_neg, ← sub_eq_add_neg]
  rw [left] at hF
  rw [c₂.kind_neg.symm.trans right] at hG
  exact hF.sub hG run

theorem agreesAt_mul : AgreesAt v (f.mul g) (do (← f.eval (.number v)).mul (← g.eval (.number v))) ShapeLost := by
  refine agreesAt_combine '*' fun h₁ h₂ hF hG pointwise run => ?_
  obtain ⟨c, hb, product⟩ := Value.toCoeff?_mul h₁ h₂ pointwise
  refine ⟨c, hb, ?_⟩
  rw [Coeff.action_mul product]
  exact hF.mul hG (Coeff.kind_mul product) run

/-- Only numbers divide values, and they divide bodies as well. -/
theorem agreesAt_divide :
    AgreesAt v (f.divide g) (do (← f.eval (.number v)).divide (← g.eval (.number v))) ShapeLost := by
  refine agreesAt_combine '/' fun h₁ h₂ hF hG pointwise run => ?_
  obtain ⟨c, hb, quotient⟩ := Value.toCoeff?_divide h₁ h₂ pointwise
  obtain ⟨z, rfl, nonzero, -⟩ := Coeff.divide_eq_ok_iff.1 quotient
  obtain ⟨kind, action⟩ := Coeff.divide_scalar nonzero quotient
  refine ⟨c, hb, ?_⟩
  rw [kind, action]
  exact hF.divide nonzero hG run

theorem agreesAt_neg : AgreesAt v f.neg (do return (← f.eval (.number v)).neg) fun _ _ => False := by
  intro h a b combined value pointwise
  obtain ⟨r, valued, pointwise⟩ := Outcome.bind_eq_ok.1 pointwise
  cases pointwise
  obtain ⟨c, hr, acts⟩ := acts_of_eval valued
  have hC : f.body.neg.Acts v.toGaussian c.neg.kind c.neg.action := by
    rw [c.kind_neg, c.action_neg]
    exact acts.neg
  rcases same_or_empty hC (Value.toCoeff?_neg hr) combined value with same | ⟨⟨q, opposite, terms⟩, -, m, matrix, -⟩
  · exact .inl same
  · -- The opposite has as many terms as the body, and without any the value is a number.
    exfalso
    obtain ⟨name, parameter, body⟩ := f
    cases body with
    | number x => cases opposite
    | matrix l => cases opposite
    | polynomial p =>
      obtain rfl : p.neg = q := Value.polynomial.inj opposite
      rw [Poly.neg_terms, List.map_eq_nil_iff] at terms
      have zero : p.eval (.number v) = .ok (Value.rational 0) := by
        rw [Poly.eval, terms]
        rfl
      obtain rfl : Value.rational 0 = r := Except.ok.inj (zero.symm.trans valued)
      cases matrix

/-! ### Powers -/

section Powers

variable {p : Poly} {z : Gaussian} {b r C : Value} {c d : Coeff}

/-- Powers of a polynomial with a positive exponent act as those of what the polynomial acts as. -/
theorem acts_power_of_pos {n : Nat} (acts : p.Acts z c.kind c.action) (hr : r.toCoeff? = some c) (positive : n ≠ 0)
    (raised : Value.powerInt n r = .ok b) (hb : b.toCoeff? = some d)
    (run : Value.powerInt n (.polynomial p) = .ok C) : C.Acts z d.kind d.action := by
  obtain ⟨d', hb', power⟩ := Value.toCoeff?_powerInt hr raised
  obtain ⟨-, square⟩ := Value.kind_coeffPower power
  have direct := (Value.acts_of_toCoeff? (z := z) hr).powerInt square positive raised
  obtain ⟨kind, action⟩ := (Value.acts_iff hb).1 direct
  have hC : C.Acts z c.kind (c.action ^ n) := Value.Acts.powerInt (v := .polynomial p) acts square positive run
  rwa [kind, ← action] at hC

/-- Powers with a negative exponent are of constant polynomials, whose coefficient is raised. -/
theorem acts_power_of_neg {n : Int} (acts : p.Acts z c.kind c.action) (negative : n < 0)
    (raised : Value.coeffPower n c = .ok d) (run : Value.powerInt n (.polynomial p) = .ok C) :
    C.Acts z d.kind d.action := by
  rw [Value.powerInt, if_neg (by omega)] at run
  split at run
  next constant =>
    obtain ⟨e, power, run⟩ := Outcome.bind_eq_ok.1 run
    cases run
    rcases acts.of_isConstant constant with ⟨-, zero, -⟩ | ⟨kind, action⟩
    · rw [zero, Value.coeffPower, Gaussian.power, if_neg (by omega), if_pos rfl] at power
      cases power
    · rw [Coeff.eq_of_action kind action, raised] at power
      cases power
      exact Poly.constant_acts d
  · cases run

/-- The power of a polynomial with the exponent zero is a one. -/
theorem simplify_power_zero (run : Value.powerInt 0 (.polynomial p) = .ok C) : C.simplify = Value.rational 1 := by
  obtain ⟨q, power, rfl⟩ := Outcome.map_eq_ok.1 run
  rw [Int.toNat_zero, Poly.power, Poly.powerOnto, dif_pos rfl] at power
  cases power
  rfl

/-- The power of a number or a matrix with the exponent zero is a one or an identity matrix. -/
theorem power_zero_cases (hr : r.toCoeff? = some c) (raised : Value.powerInt 0 r = .ok b) :
    (Value.rational 1).same b = true ∨ ∃ size m, Mat.identity size = .ok m ∧ b = .matrix m := by
  obtain ⟨s, squared, unit⟩ := (Value.hasPowers_of_powerInt hr raised).power_eq_repeated 0
  cases squared.symm.trans raised
  change r.unit = .ok b at unit
  cases r with
  | polynomial q => cases hr
  | number x =>
    left
    cases x <;> cases unit <;> rfl
  | matrix m =>
    obtain ⟨i, identity, rfl⟩ := Outcome.map_eq_ok.1 unit
    exact .inr ⟨_, i, identity, rfl⟩

end Powers

/-- Powers of a polynomial act as powers, but the one with the exponent zero is a one. -/
theorem agreesAt_power_polynomial {p : Poly} (body : f.body = .polynomial p) (shown : Text) (n : Int) :
    AgreesAt v (f.power shown (Value.powerInt n)) (do Value.powerInt n (← f.eval (.number v)))
      fun h b => ShapeLost h b ∨ (n = 0 ∧ UnitLost h b) := by
  intro h a b combined value pointwise
  obtain ⟨C, run, made⟩ := Outcome.bind_eq_ok.1 combined
  obtain ⟨r, valued, pointwise⟩ := Outcome.bind_eq_ok.1 pointwise
  obtain ⟨c, hr, acts⟩ := acts_of_eval valued
  obtain ⟨d, hb, raised⟩ := Value.toCoeff?_powerInt hr pointwise
  rw [body] at run acts
  rcases lt_trichotomy n 0 with negative | rfl | positive
  case inl =>
    have hC := acts_power_of_neg acts negative raised run
    exact (same_or_empty hC hb made value).imp id fun lost => .inl lost.2
  case inr.inl =>
    have one := simplify_power_zero run
    obtain rfl := make_eq_ok made
    have value : Value.rational 1 = a := by
      simp only [NamedFunction.eval, one] at value
      exact Except.ok.inj value
    subst value
    exact (power_zero_cases hr pointwise).imp id fun lost => .inr ⟨rfl, one, lost⟩
  case inr.inr =>
    obtain ⟨n, rfl⟩ : ∃ k : Nat, n = k := ⟨n.toNat, by omega⟩
    have hC := acts_power_of_pos acts hr (by omega) pointwise hb run
    exact (same_or_empty hC hb made value).imp id fun lost => .inl lost.2

theorem agreesAt_power (shown : Text) (n : Int) :
    AgreesAt v (f.power shown (Value.powerInt n)) (do Value.powerInt n (← f.eval (.number v)))
      fun h b => ShapeLost h b ∨ (n = 0 ∧ UnitLost h b) := by
  rcases f.body.toCoeff?_or_polynomial with ⟨c, plain⟩ | ⟨p, body⟩
  · intro h a b combined value pointwise
    left
    refine same_of_simplify plain (fun raised => ?_) combined value pointwise
    exact (Value.toCoeff?_powerInt plain raised).imp fun _ => And.left
  · exact agreesAt_power_polynomial body shown n

/-! ### Compositions -/

theorem agreesAt_compose : AgreesAt v (f.compose g) (do f.eval (← g.eval (.number v))) ShapeLost := by
  intro h a b combined value pointwise
  obtain ⟨w, inner, pointwise⟩ := Outcome.bind_eq_ok.1 pointwise
  obtain ⟨c, hw, acts⟩ := acts_of_eval inner
  unfold compose withSameParameter at combined
  split at combined
  · obtain ⟨C, run, made⟩ := Outcome.bind_eq_ok.1 combined
    rcases f.body.toCoeff?_or_polynomial with ⟨d, plain⟩ | ⟨p, body⟩
    · rw [eval_of_toCoeff? plain] at run pointwise
      cases run
      cases pointwise
      exact (same_or_empty (Value.acts_of_toCoeff? plain) plain made value).imp id And.right
    · have atBody : ∀ u, f.eval u = p.eval u := fun u => by rw [NamedFunction.eval, body]
      rw [atBody] at run pointwise
      obtain ⟨d, hb, fits, action⟩ := Poly.eval_coefficient hw pointwise
      obtain ⟨s, rfl, hs⟩ := Poly.eval_acts acts fits run
      rw [← action] at hs
      rw [make_simplify] at made
      exact (same_or_empty hs hb made value).imp id And.right
  · cases combined

/-- What is combined from functions and then taken at a number is what is combined from the values there, except that a
body without terms has forgotten a shape. -/
theorem pointwise (f g : NamedFunction) (v : Number) : Pointwise f g v where
  sum := agreesAt_add
  difference := agreesAt_sub
  product := agreesAt_mul
  quotient := agreesAt_divide
  negation := agreesAt_neg
  power := agreesAt_power
  composition := agreesAt_compose

/-- The function `f(x) = [[1]] * x`. -/
def unitSlope : NamedFunction :=
  ⟨['f'], ['x'], .polynomial (.ofTerms ['x'] [(1, .matrix (.ofGrid (by decide) (.identity 1)))])⟩

/-- The values at two of a product, of which no shape is lost. -/
theorem pointwise_unitSlope : ∃ h a b, unitSlope.mul unitSlope = .ok h ∧ h.eval (Value.rational 2) = .ok a ∧
    (do (← unitSlope.eval (Value.rational 2)).mul (← unitSlope.eval (Value.rational 2))) = .ok b ∧ a.same b = true := by
  have computed : ∃ h a b, unitSlope.mul unitSlope = .ok h ∧ h.eval (Value.rational 2) = .ok a ∧
      (do (← unitSlope.eval (Value.rational 2)).mul (← unitSlope.eval (Value.rational 2))) = .ok b ∧
      h.body ≠ Value.rational 0 := by
    refine ⟨⟨"(f * f)".toList, ['x'], .polynomial (.ofTerms ['x'] [(2, .matrix (.ofGrid (by decide) (.identity 1)))])⟩,
      .matrix (.ofGrid (by decide : 0 < 1) (.ofFn fun _ _ => 4)), .matrix (.ofGrid (by decide : 0 < 1) (.ofFn fun _ _ => 4)),
      ?_, ?_, ?_, ?_⟩ <;> decide +kernel
  obtain ⟨h, a, b, made, value, product, kept⟩ := computed
  refine ⟨h, a, b, made, value, product, ?_⟩
  rcases (pointwise unitSlope unitSlope (.rational 2)).product h a b made value product with same | ⟨zero, -⟩
  · exact same
  · exact absurd zero kept

/-- Without the exceptions differences and powers are not pointwise: `f - f` and `f ^ 0` have forgotten that the values of
`f` are matrices. -/
theorem unitSlope_forgets_shape :
    ¬AgreesAt (.rational 2) (unitSlope.sub unitSlope)
        (do (← unitSlope.eval (Value.rational 2)).sub (← unitSlope.eval (Value.rational 2))) (fun _ _ => False) ∧
      ¬AgreesAt (.rational 2) (unitSlope.power ['0'] (Value.powerInt 0))
        (do Value.powerInt 0 (← unitSlope.eval (Value.rational 2))) (fun _ _ => False) := by
  constructor
  · intro agrees
    have same := agrees ⟨"(f - f)".toList, ['x'], Value.rational 0⟩ (Value.rational 0)
      (.matrix (.ofGrid (by decide : 0 < 1) (.zero 1 1))) (by decide +kernel) (by decide +kernel) (by decide +kernel)
    exact absurd same (by decide +kernel)
  · intro agrees
    have same := agrees ⟨"f^0".toList, ['x'], Value.rational 1⟩ (Value.rational 1)
      (.matrix (.ofGrid (by decide : 0 < 1) (.identity 1))) (by decide +kernel) (by decide +kernel) (by decide +kernel)
    exact absurd same (by decide +kernel)

end NamedFunction

end Reckoner
