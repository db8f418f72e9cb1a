import Reckoner.Datum.Arithmetic
import Reckoner.Datum.Comparison
import Reckoner.Proofs.Poly.Denotation
/-!
# Mixed arithmetic is exact

Integers, rational and complex numbers, and polynomials in one variable with numbers as coefficients denote elements of
Q(i)[X]. Whatever the kinds of two operands, sums, differences, products, quotients and equality are those of Q(i)[X].
-/

namespace Reckoner

open Polynomial

/-! ## Numbers -/

namespace Number

theorem toGaussian_add (a b : Number) : (a.add b).toGaussian = a.toGaussian + b.toGaussian := by
  cases a <;> cases b <;> first | rfl | exact Gaussian.ofRat_add _ _

theorem toGaussian_sub (a b : Number) : (a.sub b).toGaussian = a.toGaussian - b.toGaussian := by
  cases a <;> cases b <;> first | rfl | exact Gaussian.ofRat_sub _ _

theorem toGaussian_mul (a b : Number) : (a.mul b).toGaussian = a.toGaussian * b.toGaussian := by
  cases a <;> cases b <;> first | rfl | exact Gaussian.ofRat_mul _ _

theorem isZero_iff {a : Number} : a.isZero = true ↔ a.toGaussian = 0 := beq_iff_eq

theorem divide_zero {a b : Number} (zero : b.toGaussian = 0) : a.divide b = refuse .divideByZero := by
  have complex : ∀ z w : Gaussian, w = 0 → (z.divide w).map Number.complex = refuse .divideByZero := by
    rintro z _ rfl
    rfl
  cases a with
  | complex z => exact complex z b.toGaussian zero
  | rational p =>
    cases b with
    | complex w => exact complex _ w zero
    | rational q =>
      obtain rfl := Gaussian.ofRat_eq_zero.1 zero
      rfl

theorem divide_nonzero {a b : Number} (nonzero : b.toGaussian ≠ 0) :
    ∃ c, a.divide b = .ok c ∧ c.toGaussian = a.toGaussian * b.toGaussian⁻¹ := by
  have complex : ∀ z w : Gaussian, w ≠ 0 → (z.divide w).map Number.complex = .ok (.complex (z * w⁻¹)) := by
    intro z w h
    rw [← div_eq_mul_inv, Gaussian.divide, if_neg h]
    rfl
  cases a with
  | complex z => exact ⟨_, complex z b.toGaussian nonzero, rfl⟩
  | rational p =>
    cases b with
    | complex w => exact ⟨_, complex _ w nonzero, rfl⟩
    | rational q =>
      have h : q ≠ 0 := fun zero => nonzero (Gaussian.ofRat_eq_zero.2 zero)
      refine ⟨.rational (p / q), ?_, (Gaussian.ofRat_div p h).trans (div_eq_mul_inv _ _)⟩
      rw [Number.divide, Rational.divide, if_neg h]
      rfl

end Number

/-! ## Polynomials as divisors and beside constants -/

namespace Poly.Denotes

variable {p q : Poly} {x : Text} {f g : Gaussian[X]}

theorem isZero_iff (h : p.Denotes x f) : p.isZero = true ↔ f = 0 := by
  rw [isZero, List.isEmpty_iff]
  constructor
  · intro empty
    ext1 n
    exact h.expands.coeff_eq_zero (by simp [empty])
  · rintro rfl
    refine List.eq_nil_iff_forall_not_mem.2 fun ⟨n, c⟩ mem => ((h.2 n c).1 mem).2 (coeff_zero n)

/-- What a constant looks like. -/
theorem constant {c : Gaussian} (h : p.Denotes x (C c)) : p.isConstant = true ∧ p.coefficient 0 = .scalar c :=
  ⟨h.isConstant_iff.2 (natDegree_C c), (h.coefficient_eq 0).trans (congrArg Coeff.scalar coeff_C_zero)⟩

theorem eq_constant_iff (h : p.Denotes x f) (z : Gaussian) :
    (p.isConstant && p.coefficient 0 == .scalar z) = true ↔ f = C z := by
  rw [Bool.and_eq_true, h.isConstant_iff, h.coefficient_eq, beq_iff_eq, Coeff.scalar.injEq]
  constructor
  · rintro ⟨constant, rfl⟩
    exact eq_C_of_natDegree_eq_zero constant
  · rintro rfl
    exact ⟨natDegree_C z, coeff_C_zero⟩

end Poly.Denotes

/-! ## Values -/

namespace Value

/-- Whether the value is a number, or a polynomial in `x` with numbers as coefficients. -/
def IsScalar (x : Text) : Value → Prop
  | .number _ => True
  | .matrix _ => False
  | .polynomial p => p.var = x ∧ ∀ t ∈ p.terms, ∃ z, t.2 = .scalar z

/-- The element of Q(i)[X] that a value stands for. -/
def Denotes (v : Value) (x : Text) (f : Gaussian[X]) : Prop :=
  match v with
  | .number a => f = C a.toGaussian
  | .matrix _ => False
  | .polynomial p => p.Denotes x f

variable {v w : Value} {x : Text} {f g : Gaussian[X]}

/-- A number or a polynomial with numbers as coefficients stands for one element. -/
theorem IsScalar.denotes (h : v.IsScalar x) : ∃ f, ∀ k, v.Denotes x k ↔ k = f := by
  cases v with
  | number a => exact ⟨C a.toGaussian, fun k => Iff.rfl⟩
  | matrix m => cases h
  | polynomial p =>
    obtain ⟨rfl, scalar⟩ := h
    obtain ⟨f, denotes⟩ := p.exists_denotes scalar
    exact ⟨f, fun k => ⟨fun h => h.unique denotes, fun h => h ▸ denotes⟩⟩

theorem Denotes.toPoly (h : v.Denotes x f) : (v.toPoly x).Denotes x f := by
  cases v with
  | number a =>
    cases h
    exact Poly.constant_denotes a.toGaussian
  | matrix m => cases h
  | polynomial p => exact h

/-! ### Sums, differences and products -/

/-- An operation that takes whatever meets a polynomial as a polynomial, and is exact on polynomials and on numbers, is
exact on all values. -/
theorem Denotes.combine {operation : Value → Value → Outcome Value} (polynomials : Poly → Poly → Outcome Poly)
    (numbers : Number → Number → Number) (ideal : Gaussian[X] → Gaussian[X] → Gaussian[X])
    (left : ∀ p w, operation (.polynomial p) w = (polynomials p (w.toPoly p.var)).map .polynomial)
    (right : ∀ a q, operation (.number a) (.polynomial q) =
      (polynomials (Value.toPoly q.var (.number a)) q).map .polynomial)
    (both : ∀ a b, operation (.number a) (.number b) = .ok (.number (numbers a b)))
    (onPolynomials : ∀ {p q f g}, Poly.Denotes p x f → Poly.Denotes q x g →
      ∃ r, polynomials p q = .ok r ∧ r.Denotes x (ideal f g))
    (onNumbers : ∀ a b, C (numbers a b).toGaussian = ideal (C a.toGaussian) (C b.toGaussian))
    (hv : v.Denotes x f) (hw : w.Denotes x g) :
    ∃ r, operation v w = .ok r ∧ r.Denotes x (ideal f g) := by
  cases v with
  | matrix m => cases hv
  | polynomial p =>
    obtain ⟨r, run, denotes⟩ := onPolynomials hv hw.toPoly
    refine ⟨.polynomial r, ?_, denotes⟩
    rw [left, hv.1, run]
    rfl
  | number a =>
    cases w with
    | matrix m => cases hw
    | polynomial q =>
      obtain ⟨r, run, denotes⟩ := onPolynomials hv.toPoly hw
      refine ⟨.polynomial r, ?_, denotes⟩
      rw [right, hw.1, run]
      rfl
    | number b =>
      cases hv
      cases hw
      exact ⟨.number (numbers a b), both a b, (onNumbers a b).symm⟩

theorem Denotes.add (hv : v.Denotes x f) (hw : w.Denotes x g) : ∃ r, v.add w = .ok r ∧ r.Denotes x (f + g) := by
  refine combine Poly.add Number.add (· + ·) (fun _ _ => rfl) (fun _ _ => rfl) (fun _ _ => rfl) ?_ ?_ hv hw
  · exact Poly.Denotes.add
  · intro a b
    rw [Number.toGaussian_add, C_add]

theorem Denotes.sub (hv : v.Denotes x f) (hw : w.Denotes x g) : ∃ r, v.sub w = .ok r ∧ r.Denotes x (f - g) := by
  refine combine (fun p q => p.add q.neg) Number.sub (· - ·) (fun _ _ => rfl) (fun _ _ => rfl) (fun _ _ => rfl) ?_ ?_
    hv hw
  · intro p q f g hp hq
    simp only [sub_eq_add_neg]
    exact hp.add hq.neg
  · intro a b
    rw [Number.toGaussian_sub, C_sub]

theorem Denotes.mul (hv : v.Denotes x f) (hw : w.Denotes x g) : ∃ r, v.mul w = .ok r ∧ r.Denotes x (f * g) := by
  refine combine Poly.mul Number.mul (· * ·) (fun _ _ => rfl) (fun _ _ => rfl) (fun _ _ => rfl) ?_ ?_ hv hw
  · exact Poly.Denotes.mul
  · intro a b
    rw [Number.toGaussian_mul, C_mul]

/-! ### Quotients -/

theorem Denotes.divide_constant {c : Gaussian} (hv : v.Denotes x f) (hw : w.Denotes x (C c)) (nonzero : c ≠ 0) :
    ∃ r, v.divide w = .ok r ∧ r.Denotes x (f * C c⁻¹) := by
  cases v with
  | matrix m => cases hv
  | polynomial p =>
    have taken : divisor p w = .ok (.scalar c) := by
      cases w with
      | matrix m => cases hw
      | number b =>
        obtain rfl := C_injective hw
        exact if_neg (mt Number.isZero_iff.1 nonzero)
      | polynomial q =>
        obtain ⟨constant, value⟩ := Poly.Denotes.constant hw
        simp [divisor, constant, value, nonzero]
    obtain ⟨r, run, denotes⟩ := Poly.Denotes.divide hv nonzero
    refine ⟨.polynomial r, ?_, denotes⟩
    rw [Value.divide, taken]
    show (do return .polynomial (← p.mapCoeffs (·.divide (.scalar c))) : Outcome Value) = _
    rw [run]
    rfl
  | number a =>
    cases hv
    cases w with
    | matrix m => cases hw
    | number b =>
      obtain rfl := C_injective hw
      obtain ⟨r, run, value⟩ := Number.divide_nonzero (a := a) nonzero
      refine ⟨.number r, ?_, ?_⟩
      · rw [Value.divide, run]
        rfl
      · rw [Denotes, value, C_mul]
    | polynomial q =>
      obtain ⟨constant, value⟩ := Poly.Denotes.constant hw
      have zero : q.isZero = false :=
        Bool.eq_false_iff.2 fun h => nonzero (C_eq_zero.1 ((Poly.Denotes.isZero_iff hw).1 h))
      refine ⟨.polynomial (.constant x (.scalar (a.toGaussian / c))), ?_, ?_⟩
      · simp only [Value.divide, divide.byPolynomial, constant, zero, value, Coeff.divide, Gaussian.divide,
          if_neg nonzero, hw.1]
        rfl
      · rw [← C_mul, ← div_eq_mul_inv]
        exact Poly.constant_denotes _

theorem Denotes.divide_zero (hv : v.Denotes x f) (hw : w.Denotes x 0) : v.divide w = refuse .divideByZero := by
  cases w with
  | matrix m => cases hw
  | number b =>
    have zero : b.toGaussian = 0 := C_eq_zero.1 (Eq.symm hw)
    cases v with
    | matrix m => cases hv
    | polynomial p =>
      rw [Value.divide, divisor, if_pos (Number.isZero_iff.2 zero)]
      rfl
    | number a =>
      rw [Value.divide, Number.divide_zero zero]
      rfl
  | polynomial q =>
    rw [← C_0] at hw
    obtain ⟨constant, value⟩ := Poly.Denotes.constant hw
    have zero : q.isZero = true := (Poly.Denotes.isZero_iff hw).2 C_0
    cases v with
    | matrix m => cases hv
    | polynomial p =>
      simp only [Value.divide, divisor, constant, value]
      rfl
    | number a =>
      simp only [Value.divide, divide.byPolynomial, constant, zero]
      rfl

theorem Denotes.divide_polynomial (hv : v.Denotes x f) (hw : w.Denotes x g) (degree : 0 < g.natDegree) :
    ∃ e : Fault, e.family = .notSupported ∧ v.divide w = refuse e := by
  cases w with
  | matrix m => cases hw
  | number b =>
    cases hw
    exact absurd (natDegree_C _) degree.ne'
  | polynomial q =>
    have varies : q.isConstant = false :=
      Bool.eq_false_iff.2 fun h => degree.ne' ((Poly.Denotes.isConstant_iff hw).1 h)
    cases v with
    | matrix m => cases hv
    | polynomial p =>
      refine ⟨.polynomialDivision p.text q.text, rfl, ?_⟩
      simp only [Value.divide, divisor, varies]
      rfl
    | number a =>
      refine ⟨.divideByPolynomial (Value.text (.number a)) q.text, rfl, ?_⟩
      simp only [Value.divide, divide.byPolynomial, varies]
      rfl

/-! ### Equality -/

theorem Denotes.same_iff (hv : v.Denotes x f) (hw : w.Denotes x g) : v.same w = true ↔ f = g := by
  cases v with
  | matrix m => cases hv
  | number a =>
    cases hv
    cases w with
    | matrix m => cases hw
    | number b =>
      cases hw
      exact beq_iff_eq.trans C_inj.symm
    | polynomial q => exact (Poly.Denotes.eq_constant_iff hw a.toGaussian).trans eq_comm
  | polynomial p =>
    cases w with
    | matrix m => cases hw
    | number b =>
      cases hw
      exact Poly.Denotes.eq_constant_iff hv b.toGaussian
    | polynomial q =>
      have hp : p.Denotes x f := hv
      have hq : q.Denotes x g := hw
      simp only [same]
      split
      next both =>
        obtain ⟨constant, constant'⟩ := Bool.and_eq_true_iff.1 both
        rw [hp.coefficient_eq, hq.coefficient_eq, beq_iff_eq, Coeff.scalar.injEq, ← C_inj,
          ← eq_C_of_natDegree_eq_zero (hp.isConstant_iff.1 constant),
          ← eq_C_of_natDegree_eq_zero (hq.isConstant_iff.1 constant')]
      next =>
        rw [Bool.and_eq_true, beq_iff_eq, beq_iff_eq, hp.terms_eq_iff hq]
        exact and_iff_right (hp.1.trans hq.1.symm)

end Value

/-! ## Data -/

namespace Datum

/-- Whether data is an integer, or a value that is a number or a polynomial in `x` with numbers as coefficients. -/
def IsScalar (x : Text) (d : Datum) : Prop := ∃ v, d.operand? = some v ∧ v.IsScalar x

/-- The element of Q(i)[X] that data stands for. -/
def Denotes (d : Datum) (x : Text) (f : Gaussian[X]) : Prop := ∃ v, d.operand? = some v ∧ v.Denotes x f

theorem IsScalar.denotes {d : Datum} {x : Text} (h : d.IsScalar x) : ∃ f, ∀ k, d.Denotes x k ↔ k = f := by
  obtain ⟨v, operand, scalar⟩ := h
  obtain ⟨f, unique⟩ := scalar.denotes
  refine ⟨f, fun k => Iff.trans ⟨?_, fun denotes => ⟨v, operand, denotes⟩⟩ (unique k)⟩
  rintro ⟨w, operand', denotes⟩
  cases operand.symm.trans operand'
  exact denotes

/-- The operators give what they give in Q(i)[X], where the operands stand for `f` and `g`. -/
structure Exact (x : Text) (a b : Datum) (f g : Gaussian[X]) : Prop where
  sum : ∃ r, operate .plus a b = .ok (.value r) ∧ r.Denotes x (f + g)
  difference : ∃ r, operate .minus a b = .ok (.value r) ∧ r.Denotes x (f - g)
  product : ∃ r, operate .times a b = .ok (.value r) ∧ r.Denotes x (f * g)
  quotient : ∀ c, c ≠ 0 → g = C c → ∃ r h, operate .divide a b = .ok (.value r) ∧ r.Denotes x h ∧ h * g = f
  zero_divisor : g = 0 → operate .divide a b = refuse .divideByZero
  polynomial_divisor : 0 < g.natDegree → ∃ e : Fault, e.family = .notSupported ∧ operate .divide a b = refuse e
  equality : ∃ same, Datum.same a b = .ok same ∧ (same = true ↔ f = g)

variable {a b : Datum} {v w : Value} {x : Text} {f g : Gaussian[X]}

/-- Data that stands for a value is a truth value, an integer or the value itself. -/
theorem operand?_cases (h : a.operand? = some v) :
    (∃ t, a = .truth t ∧ v = .rational (if t then 1 else 0)) ∨ (∃ i : Int, a = .integer i ∧ v = .rational i) ∨
      a = .value v := by
  cases a <;> cases h
  case truth t => exact .inl ⟨t, rfl, rfl⟩
  case integer i => exact .inr (.inl ⟨i, rfl, rfl⟩)
  case value => exact .inr (.inr rfl)

/-- An operator on data that are not both plain integers is the operator on their values, unless it names a truth
value. -/
theorem operate_of_operands {o : Operator} (ha : a.operand? = some v) (hb : b.operand? = some w)
    (mixed : ¬(a.plainInteger?.isSome ∧ b.plainInteger?.isSome)) (silent : spokenFault? o a b = none)
    (apart : o ≠ .power ∧ o ≠ .matrixTimes) : operate o a b = (o.apply v w).map .value := by
  obtain ⟨notPower, notMatrix⟩ := apart
  have result : valueResult o v w = (o.apply v w).map .value := by
    cases o <;> first | rfl | exact absurd rfl notMatrix
  obtain ⟨t, rfl, rfl⟩ | ⟨i, rfl, rfl⟩ | rfl := operand?_cases ha <;>
    obtain ⟨t', rfl, rfl⟩ | ⟨i', rfl, rfl⟩ | rfl := operand?_cases hb <;>
      first
      | exact absurd ⟨rfl, rfl⟩ mixed
      | cases o <;>
          first
          | exact absurd rfl notPower
          | simpa only [operate, silent, operand?, operate.isValue, Bool.or_true, Bool.true_or, if_true] using result

theorem operate_of_spoken {o : Operator} {e : Fault} (ha : a.operand? = some v) (hb : b.operand? = some w)
    (spoken : spokenFault? o a b = some e) (notPower : o ≠ .power) : operate o a b = refuse e := by
  obtain ⟨t, rfl, rfl⟩ | ⟨i, rfl, rfl⟩ | rfl := operand?_cases ha <;>
    obtain ⟨t', rfl, rfl⟩ | ⟨i', rfl, rfl⟩ | rfl := operand?_cases hb <;> cases o <;>
      first
      | exact absurd rfl notPower
      | simp only [operate, spoken]

theorem same_of_operands (ha : a.operand? = some v) (hb : b.operand? = some w) :
    Datum.same a b = .ok (v.same w) := by
  obtain ⟨t, rfl, rfl⟩ | ⟨i, rfl, rfl⟩ | rfl := operand?_cases ha <;>
    obtain ⟨t', rfl, rfl⟩ | ⟨i', rfl, rfl⟩ | rfl := operand?_cases hb <;> rfl

/-- A matrix stands for no element. -/
theorem Denotes.ne_matrix (h : a.Denotes x f) (m : Mat) : a ≠ .value (.matrix m) := by
  rintro rfl
  obtain ⟨_, ⟨⟩, ⟨⟩⟩ := h

theorem Denotes.polynomial {q : Poly} (h : Denotes (.value (.polynomial q)) x f) : q.Denotes x f := by
  obtain ⟨_, ⟨⟩, denotes⟩ := h
  exact denotes

/-- Truth values beside numbers and polynomials are named only in a quotient by a polynomial that is not constant. -/
theorem spokenFault?_eq_none {o : Operator} (ha : a.Denotes x f) (hb : b.Denotes x g)
    (plain : o = .plus ∨ o = .minus ∨ o = .times ∨ o = .divide ∧ g.natDegree = 0) : spokenFault? o a b = none := by
  unfold spokenFault?
  split
  next m _ => exact absurd rfl (ha.ne_matrix m)
  next m => exact absurd rfl (hb.ne_matrix m)
  next m _ => exact absurd rfl (ha.ne_matrix m)
  next m => exact absurd rfl (hb.ne_matrix m)
  next m => exact absurd rfl (hb.ne_matrix m)
  next q =>
    -- A truth value is divided by a polynomial, which is a constant by assumption.
    have constant : g.natDegree = 0 := by simpa using plain
    simp [hb.polynomial.isConstant_iff.2 constant, hb.polynomial.coefficient_eq]
  next => simp at plain
  next => rfl

theorem spokenFault?_polynomial (ha : a.Denotes x f) (hb : b.Denotes x g) (degree : 0 < g.natDegree) :
    spokenFault? .divide a b = none ∨ ∃ e : Fault, e.family = .notSupported ∧ spokenFault? .divide a b = some e := by
  unfold spokenFault?
  split
  next => contradiction
  next => contradiction
  next => contradiction
  next => contradiction
  next m _ => exact absurd rfl (hb.ne_matrix m)
  next t q _ =>
    have varies : q.isConstant = false :=
      Bool.eq_false_iff.2 fun h => degree.ne' (hb.polynomial.isConstant_iff.1 h)
    exact .inr ⟨.divideByPolynomial (truthText t) q.text, rfl, by simp [varies]⟩
  next => contradiction
  next => exact .inl rfl

theorem exact_of_denotes (ha : a.Denotes x f) (hb : b.Denotes x g)
    (mixed : ¬(a.plainInteger?.isSome ∧ b.plainInteger?.isSome)) : Exact x a b f g := by
  obtain ⟨v, va, hv⟩ := id ha
  obtain ⟨w, wb, hw⟩ := id hb
  have run : ∀ o, o = .plus ∨ o = .minus ∨ o = .times ∨ o = .divide ∧ g.natDegree = 0 →
      operate o a b = (o.apply v w).map .value := fun o plain =>
    operate_of_operands va wb mixed (spokenFault?_eq_none ha hb plain) (by rcases plain with h | h | h | ⟨h, -⟩ <;> simp [h])
  constructor
  · obtain ⟨r, sum, denotes⟩ := hv.add hw
    exact ⟨r, by rw [run .plus (by simp), Operator.apply, sum]; rfl, denotes⟩
  · obtain ⟨r, difference, denotes⟩ := hv.sub hw
    exact ⟨r, by rw [run .minus (by simp), Operator.apply, difference]; rfl, denotes⟩
  · obtain ⟨r, product, denotes⟩ := hv.mul hw
    exact ⟨r, by rw [run .times (by simp), Operator.apply, product]; rfl, denotes⟩
  · rintro c nonzero rfl
    obtain ⟨r, quotient, denotes⟩ := hv.divide_constant hw nonzero
    refine ⟨r, f * C c⁻¹, by rw [run .divide (by simp), Operator.apply, quotient]; rfl, denotes, ?_⟩
    rw [mul_assoc, ← C_mul, inv_mul_cancel₀ nonzero, C_1, mul_one]
  · rintro rfl
    rw [run .divide (by simp), Operator.apply, hv.divide_zero hw]
    rfl
  · intro degree
    -- A truth value is named in a fault of its own kind; all else fails as values do.
    rcases spokenFault?_polynomial ha hb degree with silent | ⟨e, family, spoken⟩
    · obtain ⟨e, family, refused⟩ := hv.divide_polynomial hw degree
      refine ⟨e, family, ?_⟩
      rw [operate_of_operands va wb mixed silent (by simp), Operator.apply, refused]
      rfl
    · exact ⟨e, family, operate_of_spoken va wb spoken (by simp)⟩
  · exact ⟨v.same w, same_of_operands va wb, hv.same_iff hw⟩

/-- Each operand that is an integer, a number or a polynomial in `x` with numbers as coefficients stands for one
element of Q(i)[X]. On two of them that are not both plain integers the operators give what they give in Q(i)[X]. -/
theorem arithmetic_exact (ha : a.IsScalar x) (hb : b.IsScalar x)
    (mixed : ¬(a.plainInteger?.isSome ∧ b.plainInteger?.isSome)) :
    ∃ f g, (∀ k, a.Denotes x k ↔ k = f) ∧ (∀ k, b.Denotes x k ↔ k = g) ∧ Exact x a b f g := by
  obtain ⟨f, hf⟩ := ha.denotes
  obtain ⟨g, hg⟩ := hb.denotes
  exact ⟨f, g, hf, hg, exact_of_denotes ((hf f).2 rfl) ((hg g).2 rfl) mixed⟩

/-- The polynomial `i * x + 1/2`. -/
def slopeOfUnit : Poly := .ofTerms ['x'] [(1, .scalar ⟨0, 1⟩), (0, .scalar ⟨1 / 2, 0⟩)]

theorem arithmetic_exact_slopeOfUnit :
    (integer 2).IsScalar ['x'] ∧ IsScalar ['x'] (.value (.polynomial slopeOfUnit)) ∧
      ¬((integer 2).plainInteger?.isSome ∧ (value (.polynomial slopeOfUnit)).plainInteger?.isSome) ∧
      ∃ f g, (∀ k, (integer 2).Denotes ['x'] k ↔ k = f) ∧
        (∀ k, Denotes (.value (.polynomial slopeOfUnit)) ['x'] k ↔ k = g) ∧
        Exact ['x'] (integer 2) (.value (.polynomial slopeOfUnit)) f g := by
  have two : (integer 2).IsScalar ['x'] := ⟨_, rfl, trivial⟩
  have slope : IsScalar ['x'] (.value (.polynomial slopeOfUnit)) := by
    refine ⟨_, rfl, rfl, ?_⟩
    have terms : slopeOfUnit.terms = [(1, .scalar ⟨0, 1⟩), (0, .scalar ⟨1 / 2, 0⟩)] := by decide +kernel
    rw [terms]
    exact List.forall_mem_cons.2 ⟨⟨_, rfl⟩, List.forall_mem_singleton.2 ⟨_, rfl⟩⟩
  exact ⟨two, slope, by decide, arithmetic_exact two slope (by decide)⟩

end Datum

end Reckoner
