import Reckoner.Proofs.Expression.Grammar
import Reckoner.Proofs.Poly.Monomial
import Reckoner.Proofs.Value.Power
/-!
# Values as coefficients and as polynomials

Numbers and matrices are coefficients, and every value in a variable is a polynomial in it. Operations on values are the
operations on what they are, so that a product of coefficients and of one power of the variable is a monomial.
-/

namespace Reckoner

/-! ## Coefficients -/

namespace Operator

/-- What an operator of products makes of two coefficients. -/
def onCoeffs : Operator → Coeff → Coeff → Outcome Coeff
  | .divide, a, b => a.divide b
  | .modulo, a, b => a.modulo (Value.coeffModulus b)
  | _, a, b => a.mul b

variable {o : Operator} {a b c d q : Coeff}

theorem onCoeffs_neg (h : o.onCoeffs a b = .ok c) : o.onCoeffs a.neg b = .ok c.neg := by
  cases o with
  | divide => exact Coeff.neg_divide h
  | modulo => exact Coeff.neg_modulo h
  | _ => exact Coeff.neg_mul h

/-- What is multiplied by a product or a quotient may be multiplied by its left side first. -/
theorem onCoeffs_of_mul (noRemainder : o ≠ .modulo) (h : o.onCoeffs b c = .ok d) (h' : a.mul d = .ok q) :
    ∃ ab, a.mul b = .ok ab ∧ o.onCoeffs ab c = .ok q := by
  cases o with
  | divide => exact Coeff.divide_of_mul h h'
  | modulo => exact absurd rfl noRemainder
  | _ => exact Coeff.mul_of_mul h h'

end Operator

namespace Value

variable {v w r : Value} {x : Text} {a b c d : Coeff} {n : Nat}

theorem toCoeff?_eq_some (h : v.toCoeff? = some c) : (∃ y, v = .number y ∧ c = .scalar y.toGaussian) ∨
    ∃ m, v = .matrix m ∧ c = .matrix m := by
  cases v with
  | number y => exact .inl ⟨y, rfl, (Option.some.inj h).symm⟩
  | matrix m => exact .inr ⟨m, rfl, (Option.some.inj h).symm⟩
  | polynomial p => cases h

theorem toCoeff?_neg (h : v.toCoeff? = some c) : v.neg.toCoeff? = some c.neg := by
  obtain ⟨y, rfl, rfl⟩ | ⟨m, rfl, rfl⟩ := toCoeff?_eq_some h
  · cases y with
    | rational q => exact congrArg (some ∘ Coeff.scalar) (Gaussian.ext rfl neg_zero.symm)
    | complex z => rfl
  · rfl

theorem toCoeff?_simplify (h : v.toCoeff? = some c) : v.simplify.toCoeff? = some c := by
  obtain ⟨y, rfl, rfl⟩ | ⟨m, rfl, rfl⟩ := toCoeff?_eq_some h
  · exact congrArg (some ∘ Coeff.scalar) (Number.toGaussian_ofGaussian _)
  · rfl

theorem toPoly_of_toCoeff? (h : v.toCoeff? = some c) : v.toPoly x = .monomial x 0 c := by
  obtain ⟨y, rfl, rfl⟩ | ⟨m, rfl, rfl⟩ := toCoeff?_eq_some h <;> rfl

theorem toCoeff?_mul (hv : v.toCoeff? = some a) (hw : w.toCoeff? = some b) (h : v.mul w = .ok r) :
    ∃ c, r.toCoeff? = some c ∧ a.mul b = .ok c := by
  obtain ⟨y, rfl, rfl⟩ | ⟨m, rfl, rfl⟩ := toCoeff?_eq_some hv
  · obtain ⟨z, rfl, rfl⟩ | ⟨n, rfl, rfl⟩ := toCoeff?_eq_some hw
    · cases h
      exact ⟨_, rfl, congrArg (Except.ok ∘ Coeff.scalar) (Number.toGaussian_mul y z).symm⟩
    · cases h
      exact ⟨_, rfl, rfl⟩
  · obtain ⟨z, rfl, rfl⟩ | ⟨n, rfl, rfl⟩ := toCoeff?_eq_some hw
    · cases h
      exact ⟨_, rfl, rfl⟩
    · obtain ⟨q, product, rfl⟩ := Outcome.map_eq_ok.1 h
      exact ⟨.matrix q, rfl, by rw [Coeff.mul, product]; rfl⟩

theorem toCoeff?_divide (hv : v.toCoeff? = some a) (hw : w.toCoeff? = some b) (h : v.divide w = .ok r) :
    ∃ c, r.toCoeff? = some c ∧ a.divide b = .ok c := by
  obtain ⟨y, rfl, rfl⟩ | ⟨m, rfl, rfl⟩ := toCoeff?_eq_some hv
  · obtain ⟨z, rfl, rfl⟩ | ⟨n, rfl, rfl⟩ := toCoeff?_eq_some hw
    · obtain ⟨q, quotient, rfl⟩ := Outcome.map_eq_ok.1 h
      by_cases zero : z.toGaussian = 0
      · rw [Number.divide_zero zero] at quotient
        cases quotient
      · obtain ⟨q', quotient', value⟩ := Number.divide_nonzero (a := y) zero
        cases quotient.symm.trans quotient'
        refine ⟨.scalar q.toGaussian, rfl, Coeff.divide_eq_ok_iff.2 ⟨_, rfl, zero, ?_⟩⟩
        rw [value, Coeff.mul]
    · cases h
  · obtain ⟨z, rfl, rfl⟩ | ⟨n, rfl, rfl⟩ := toCoeff?_eq_some hw
    · obtain ⟨q, quotient, rfl⟩ := Outcome.map_eq_ok.1 h
      exact ⟨.matrix q, rfl, by rw [Coeff.divide, quotient]; rfl⟩
    · cases h

/-- Only rational numbers have remainders, among values as among coefficients. -/
theorem toCoeff?_modulo (hv : v.toCoeff? = some a) (hw : w.toCoeff? = some b) (h : v.modulo w = .ok r) :
    ∃ c, r.toCoeff? = some c ∧ a.modulo (coeffModulus b) = .ok c := by
  obtain ⟨y, rfl, rfl⟩ | ⟨m, rfl, rfl⟩ := toCoeff?_eq_some hv
  · cases y with
    | complex y => cases h
    | rational y =>
      obtain ⟨z, rfl, rfl⟩ | ⟨n, rfl, rfl⟩ := toCoeff?_eq_some hw
      · cases z with
        | complex z => cases h
        | rational z =>
          obtain ⟨_, numbers, rfl⟩ := Outcome.map_eq_ok.1 h
          obtain ⟨q, remainder, rfl⟩ := Outcome.map_eq_ok.1 numbers
          refine ⟨Coeff.ofRat q, rfl, ?_⟩
          show (Rational.modulo y z).map Coeff.ofRat = _
          exact Outcome.map_eq_ok.2 ⟨q, remainder, rfl⟩
      · cases h
  · cases h

/-- The operators of products do on numbers and matrices what they do on coefficients. -/
theorem toCoeff?_apply {o : Operator} (multiplicative : o.multiplicative = true) (hv : v.toCoeff? = some a)
    (hw : w.toCoeff? = some b) (h : o.apply v w = .ok r) : ∃ c, r.toCoeff? = some c ∧ o.onCoeffs a b = .ok c := by
  cases o with
  | plus | minus | power => cases multiplicative
  | times | matrixTimes => exact toCoeff?_mul hv hw h
  | divide => exact toCoeff?_divide hv hw h
  | modulo => exact toCoeff?_modulo hv hw h

/-- No operator makes a polynomial of numbers and matrices. -/
theorem exists_toCoeff?_apply {o : Operator} (hv : ∃ a, v.toCoeff? = some a) (hw : ∃ b, w.toCoeff? = some b)
    (h : o.apply v w = .ok r) : ∃ c, r.toCoeff? = some c := by
  obtain ⟨a, hv⟩ := hv
  obtain ⟨b, hw⟩ := hw
  cases multiplicative : o.multiplicative with
  | true => exact (toCoeff?_apply multiplicative hv hw h).imp fun _ => And.left
  | false =>
    cases o with
    | times | matrixTimes | divide | modulo => cases multiplicative
    | plus | minus =>
      obtain ⟨y, rfl, -⟩ | ⟨m, rfl, -⟩ := toCoeff?_eq_some hv <;>
        obtain ⟨z, rfl, -⟩ | ⟨n, rfl, -⟩ := toCoeff?_eq_some hw
      · cases h
        exact ⟨_, rfl⟩
      · cases h
      · cases h
      · obtain ⟨q, -, rfl⟩ := Outcome.map_eq_ok.1 h
        exact ⟨_, rfl⟩
    | power =>
      obtain ⟨n, h⟩ : ∃ n, powerInt n v = .ok r := by
        change v.power w = .ok r at h
        unfold Value.power at h
        split at h
        · split at h
          · cases h
          · obtain ⟨n, -, h⟩ := Outcome.bind_eq_ok.1 h
            exact ⟨n, h⟩
        · obtain ⟨n, -, h⟩ := Outcome.bind_eq_ok.1 h
          exact ⟨n, h⟩
      obtain ⟨y, rfl, -⟩ | ⟨m, rfl, -⟩ := toCoeff?_eq_some hv
      · obtain ⟨q, -, rfl⟩ := Outcome.map_eq_ok.1 h
        exact ⟨_, rfl⟩
      · obtain ⟨q, -, rfl⟩ := Outcome.map_eq_ok.1 h
        exact ⟨_, rfl⟩

/-! ## Monomials -/

theorem neg_monomial (x : Text) (n : Nat) (c : Coeff) :
    (polynomial (.monomial x n c)).neg = .polynomial (.monomial x n c.neg) := congrArg polynomial (Poly.monomial_neg x n c)

/-- A factor before a power of the variable is its coefficient. -/
theorem mul_monomial (hv : v.toCoeff? = some c) (h : v.mul (.polynomial (.monomial x n (.ofRat 1))) = .ok r) :
    r = .polynomial (.monomial x n c) := by
  have product : v.mul (.polynomial (.monomial x n (.ofRat 1))) =
      ((v.toPoly x).mul (.monomial x n (.ofRat 1))).map .polynomial := by
    cases v with
    | polynomial p => cases hv
    | _ => rfl
  rw [product, toPoly_of_toCoeff? hv, Poly.monomial_mul c.mul_one, Nat.zero_add] at h
  exact (Except.ok.inj h).symm

/-- A product of a monomial and a coefficient is the one of the coefficients. -/
theorem monomial_mul (hw : w.toCoeff? = some b) (hc : c.mul b = .ok d) (h : (polynomial (.monomial x n c)).mul w = .ok r) :
    r = .polynomial (.monomial x n d) := by
  have product : (polynomial (.monomial x n c)).mul w = ((Poly.monomial x n c).mul (w.toPoly x)).map .polynomial := by
    cases w <;> rfl
  rw [product, toPoly_of_toCoeff? hw, Poly.monomial_mul hc] at h
  exact (Except.ok.inj h).symm

/-- A quotient of a monomial and a coefficient is the one of the coefficients. -/
theorem monomial_divide (hw : w.toCoeff? = some b) (hc : c.divide b = .ok d)
    (h : (polynomial (.monomial x n c)).divide w = .ok r) : r = .polynomial (.monomial x n d) := by
  have quotient : (polynomial (.monomial x n c)).divide w = (do
      let e ← divisor (.monomial x n c) w
      return .polynomial (← (Poly.monomial x n c).mapCoeffs fun c => c.divide e)) := by
    cases w <;> rfl
  rw [quotient] at h
  obtain ⟨e, found, h⟩ := Outcome.bind_eq_ok.1 h
  have same : e = b := by
    obtain ⟨z, rfl, rfl⟩ | ⟨m, rfl, rfl⟩ := toCoeff?_eq_some hw
    · simp only [divisor] at found
      split at found
      · cases found
      · exact (Except.ok.inj found).symm
    · exact (Except.ok.inj found).symm
  rw [same, Poly.monomial_divide hc] at h
  exact (Except.ok.inj h).symm

theorem monomial_apply {o : Operator} (multiplicative : o.multiplicative = true) (noRemainder : o ≠ .modulo)
    (hw : w.toCoeff? = some b) (hc : o.onCoeffs c b = .ok d) (h : o.apply (.polynomial (.monomial x n c)) w = .ok r) :
    r = .polynomial (.monomial x n d) := by
  cases o with
  | plus | minus | power => cases multiplicative
  | times | matrixTimes => exact monomial_mul hw hc h
  | divide => exact monomial_divide hw hc h
  | modulo => exact absurd rfl noRemainder

/-- A power of the variable, with a natural number as exponent. -/
theorem identity_power (x : Text) (n : Nat) :
    (polynomial (.identity x)).power (rational n) = .ok (.polynomial (.monomial x n (.ofRat 1))) := by
  have exponent : (rational n).exponent = .ok (n : Int) := rfl
  show ((rational n).exponent >>= fun k => powerInt k (.polynomial (.identity x))) = _
  rw [exponent]
  show powerInt n (.polynomial (.identity x)) = _
  rw [powerInt, if_pos (Int.natCast_nonneg n), Int.toNat_natCast, Poly.identity_power]
  rfl

/-! ## Polynomials -/

/-- The sum of two constants. -/
theorem constant_add (h : a.add b = .ok c) : (Poly.monomial x 0 a).add (.monomial x 0 b) = .ok (.monomial x 0 c) :=
  Poly.ofTerms_add (List.pairwise_singleton _ _) (by rw [Terms.add, if_neg (Nat.lt_irrefl 0), if_pos rfl, h]; rfl)

theorem toPoly_add (hv : v.Over x) (hw : w.Over x) (h : v.add w = .ok r) :
    (v.toPoly x).add (w.toPoly x) = .ok (r.toPoly x) := by
  unfold Value.add at h
  split at h
  · obtain ⟨q, sum, rfl⟩ := Outcome.map_eq_ok.1 h
    rw [← hv _ rfl]
    exact sum
  · obtain ⟨q, sum, rfl⟩ := Outcome.map_eq_ok.1 h
    rw [← hw _ rfl]
    exact sum
  · cases h
    exact constant_add (congrArg (Except.ok ∘ Coeff.scalar) (Number.toGaussian_add _ _).symm)
  · obtain ⟨q, sum, rfl⟩ := Outcome.map_eq_ok.1 h
    exact constant_add (by rw [Coeff.add, sum]; rfl)
  · cases h
  · cases h

theorem toPoly_sub (hv : v.Over x) (hw : w.Over x) (h : v.sub w = .ok r) :
    (v.toPoly x).add (w.toPoly x).neg = .ok (r.toPoly x) := by
  have constants : ∀ {a b c : Coeff}, a.add b.neg = .ok c →
      (Poly.monomial x 0 a).add (Poly.monomial x 0 b).neg = .ok (.monomial x 0 c) := by
    intro a b c h
    rw [Poly.monomial_neg]
    exact constant_add h
  unfold Value.sub at h
  split at h
  · obtain ⟨q, sum, rfl⟩ := Outcome.map_eq_ok.1 h
    rw [← hv _ rfl]
    exact sum
  · obtain ⟨q, sum, rfl⟩ := Outcome.map_eq_ok.1 h
    rw [← hw _ rfl]
    exact sum
  · cases h
    refine constants (congrArg (Except.ok ∘ Coeff.scalar) ?_)
    rw [Number.toGaussian_sub, sub_eq_add_neg]
  · obtain ⟨q, sum, rfl⟩ := Outcome.map_eq_ok.1 h
    exact constants (by rw [Coeff.neg, Coeff.add, Mat.add_neg sum]; rfl)
  · cases h
  · cases h

theorem toPoly_simplify (h : v.Over x) : v.simplify.toPoly x = v.toPoly x := by
  cases v with
  | number y => exact congrArg (Poly.monomial x 0 ∘ Coeff.scalar) (Number.toGaussian_ofGaussian _)
  | matrix m => rfl
  | polynomial p =>
    rw [simplify]
    split
    next constant =>
      have value : (p.coefficient 0).toValue.toPoly x = .monomial x 0 (p.coefficient 0) := by
        cases p.coefficient 0 with
        | scalar z => exact congrArg (Poly.monomial x 0 ∘ Coeff.scalar) (Number.toGaussian_ofGaussian z)
        | matrix m => rfl
      rw [value, ← h p rfl]
      exact Poly.monomial_of_isConstant constant
    · rfl

/-- A value that is a polynomial equals it, unless it is a matrix of zeros: the polynomial has no term left of it. -/
theorem same_toPoly (h : v.Over x) : same (.polynomial (v.toPoly x)) v = true ∨
    (∃ m, v = .matrix m) ∧ v.isZero = true ∧ (v.toPoly x).isZero = true := by
  cases v with
  | number y =>
    left
    have value : (Poly.monomial x 0 (.scalar y.toGaussian)).coefficient 0 = .scalar y.toGaussian := by
      cases zero : (Coeff.scalar y.toGaussian).isZero with
      | true =>
        rw [Poly.monomial_of_isZero zero, beq_iff_eq.1 zero]
        rfl
      | false => exact Poly.coefficient_monomial_zero x zero
    exact Bool.and_eq_true_iff.2 ⟨Poly.isConstant_monomial_zero x _, beq_iff_eq.2 value⟩
  | matrix m =>
    cases zero : (Coeff.matrix m).isZero with
    | true =>
      refine .inr ⟨⟨m, rfl⟩, zero, ?_⟩
      show (Poly.monomial x 0 (.matrix m)).isZero = true
      rw [Poly.monomial_of_isZero zero]
      rfl
    | false =>
      exact .inl (Bool.and_eq_true_iff.2
        ⟨Poly.isConstant_monomial_zero x _, beq_iff_eq.2 (Poly.coefficient_monomial_zero x zero)⟩)
  | polynomial p =>
    left
    simp [same, toPoly]

end Value

end Reckoner
