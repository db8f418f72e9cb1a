import Reckoner.Proofs.Poly.Action
import Reckoner.Proofs.Value.Coefficients
import Reckoner.Proofs.Value.RepeatedProduct
/-!
# How values act at a number

Numbers and matrices act as coefficients do, polynomials as they do at the number. Operations on values are those on their
actions, and the kind of a result follows from the kinds of the operands.
-/

namespace Reckoner

open Coeff (Kind)

/-! ## Coefficients -/

namespace Coeff

variable {a b c : Coeff}

/-- Coefficients of one kind that act alike are equal. -/
theorem eq_of_action (kind : a.kind = b.kind) (same : a.action = b.action) : a = b := by
  cases a <;> cases b
  case scalar.scalar y z =>
    have numbers := LinearMap.congr_fun same (fun _ => 1)
    have equal : y * 1 = z * 1 := congrFun numbers 0
    rw [MulOneClass.mul_one, MulOneClass.mul_one] at equal
    rw [equal]
  case matrix.matrix l m => rw [Mat.eq_of_action (Option.some.inj kind) same]
  all_goals cases kind

/-- What acts as zero is zero. -/
theorem isZero_of_action (zero : c.action = 0) : c.isZero = true := by
  have product : c.mul (scalar 0) = .ok c := by
    cases c with
    | scalar z =>
      have same : scalar z = scalar 0 := eq_of_action rfl (zero.trans (zero_smul _ _).symm)
      cases same
      exact congrArg (Except.ok ∘ scalar) (mul_zero 0)
    | matrix m =>
      have same : m.scale 0 = m := by
        refine Mat.eq_of_action rfl ?_
        rw [Mat.action_scale, zero_smul]
        exact zero.symm
      exact congrArg (Except.ok ∘ matrix) same
  exact isZero_iff.2 product

end Coeff

namespace Mat

variable {m r : Mat} {n : Int}

/-- Powers are of square matrices, and of their shape. -/
theorem power_shape (h : m.power n = .ok r) : m.isSquare = true ∧ r.shape = m.shape := by
  rw [power_eq, onSquare] at h
  split at h
  next square =>
    refine ⟨beq_iff_eq.2 square.symm, ?_⟩
    have size : r.shape = (m.height, m.height) := by
      split at h
      · cases h
        rfl
      · obtain ⟨i, -, h⟩ := Outcome.bind_eq_ok.1 h
        cases h
        rfl
    rw [size, shape, square]
  · cases h

end Mat

/-! ## Numbers and matrices -/

theorem Number.toGaussian_power {a b : Number} {n : Int} (h : a.power n = .ok b) :
    a.toGaussian.power n = .ok b.toGaussian := by
  by_cases sign : 0 ≤ n
  · obtain ⟨c, run, value⟩ := power_of_nonneg (a := a) sign
    cases run.symm.trans h
    rw [Gaussian.power_of_nonneg sign, value]
  · by_cases zero : a.toGaussian = 0
    · exact absurd h (power_ne_ok zero (not_le.1 sign))
    · obtain ⟨c, run, value⟩ := power_of_ne_zero (n := n) zero
      cases run.symm.trans h
      rw [Gaussian.power_of_ne_zero zero, value]

namespace Value

variable {v w r : Value} {a b c : Coeff}

@[simp] theorem toCoeff?_toValue (c : Coeff) : c.toValue.toCoeff? = some c := by
  cases c with
  | scalar z => exact congrArg (some ∘ Coeff.scalar) (Number.toGaussian_ofGaussian z)
  | matrix m => rfl

theorem toCoeff?_add (hv : v.toCoeff? = some a) (hw : w.toCoeff? = some b) (h : v.add w = .ok r) :
    ∃ c, r.toCoeff? = some c ∧ a.add b = .ok c := by
  obtain ⟨y, rfl, rfl⟩ | ⟨m, rfl, rfl⟩ := toCoeff?_eq_some hv <;>
    obtain ⟨z, rfl, rfl⟩ | ⟨n, rfl, rfl⟩ := toCoeff?_eq_some hw
  · cases h
    exact ⟨_, rfl, congrArg (Except.ok ∘ Coeff.scalar) (Number.toGaussian_add y z).symm⟩
  · cases h
  · cases h
  · obtain ⟨q, sum, rfl⟩ := Outcome.map_eq_ok.1 h
    exact ⟨.matrix q, rfl, by rw [Coeff.add, sum]; rfl⟩

theorem toCoeff?_sub (hv : v.toCoeff? = some a) (hw : w.toCoeff? = some b) (h : v.sub w = .ok r) :
    ∃ c, r.toCoeff? = some c ∧ a.add b.neg = .ok c := by
  obtain ⟨y, rfl, rfl⟩ | ⟨m, rfl, rfl⟩ := toCoeff?_eq_some hv <;>
    obtain ⟨z, rfl, rfl⟩ | ⟨n, rfl, rfl⟩ := toCoeff?_eq_some hw
  · cases h
    refine ⟨_, rfl, congrArg (Except.ok ∘ Coeff.scalar) ?_⟩
    rw [Number.toGaussian_sub, sub_eq_add_neg]
  · cases h
  · cases h
  · obtain ⟨q, difference, rfl⟩ := Outcome.map_eq_ok.1 h
    exact ⟨.matrix q, rfl, by rw [Coeff.neg, Coeff.add, Mat.add_neg difference]; rfl⟩

/-- Powers of numbers and matrices are those of the coefficients that they are. -/
theorem toCoeff?_powerInt {n : Int} (hv : v.toCoeff? = some a) (h : powerInt n v = .ok r) :
    ∃ c, r.toCoeff? = some c ∧ coeffPower n a = .ok c := by
  obtain ⟨y, rfl, rfl⟩ | ⟨m, rfl, rfl⟩ := toCoeff?_eq_some hv
  · obtain ⟨q, power, rfl⟩ := Outcome.map_eq_ok.1 h
    exact ⟨_, rfl, Outcome.map_eq_ok.2 ⟨_, Number.toGaussian_power power, rfl⟩⟩
  · obtain ⟨q, power, rfl⟩ := Outcome.map_eq_ok.1 h
    exact ⟨.matrix q, rfl, Outcome.map_eq_ok.2 ⟨q, power, rfl⟩⟩

/-- Powers are of numbers and square matrices, and of their kind. -/
theorem kind_coeffPower {n : Int} (h : coeffPower n a = .ok c) :
    c.kind = a.kind ∧ Kind.mul a.kind a.kind = some a.kind := by
  cases a with
  | scalar z =>
    obtain ⟨q, -, rfl⟩ := Outcome.map_eq_ok.1 h
    exact ⟨rfl, rfl⟩
  | matrix m =>
    obtain ⟨q, power, rfl⟩ := Outcome.map_eq_ok.1 h
    obtain ⟨square, shape⟩ := Mat.power_shape power
    refine ⟨congrArg some shape, ?_⟩
    show (if m.height = m.width then _ else _) = _
    rw [if_pos (beq_iff_eq.1 square)]
    rfl

theorem hasPowers_of_powerInt {n : Int} (hv : v.toCoeff? = some a) (h : powerInt n v = .ok r) : v.HasPowers := by
  obtain ⟨y, rfl, rfl⟩ | ⟨m, rfl, rfl⟩ := toCoeff?_eq_some hv
  · trivial
  · obtain ⟨q, power, rfl⟩ := Outcome.map_eq_ok.1 h
    exact (Mat.power_shape power).1

theorem same_of_toCoeff? (hv : v.toCoeff? = some c) (hw : w.toCoeff? = some c) : v.same w = true := by
  obtain ⟨y, rfl, rfl⟩ | ⟨m, rfl, rfl⟩ := toCoeff?_eq_some hv <;>
    obtain ⟨z, rfl, same⟩ | ⟨n, rfl, same⟩ := toCoeff?_eq_some hw
  · exact beq_iff_eq.2 (Coeff.scalar.inj same)
  · cases same
  · cases same
  · exact beq_iff_eq.2 (Coeff.matrix.inj same)

end Value

/-! ## Actions -/

namespace Value

variable {v w r : Value} {z : Gaussian} {k l m : Kind} {A B : Action} {c : Coeff}

/-- At `z` the value acts as `A`, and it is of kind `k`. -/
def Acts (z : Gaussian) (k : Kind) (A : Action) : Value → Prop
  | .polynomial p => p.Acts z k A
  | .number x => k = none ∧ (Coeff.scalar x.toGaussian).action = A
  | .matrix m => k = some m.shape ∧ (Coeff.matrix m).action = A

theorem acts_iff (h : v.toCoeff? = some c) : v.Acts z k A ↔ k = c.kind ∧ c.action = A := by
  obtain ⟨y, rfl, rfl⟩ | ⟨m, rfl, rfl⟩ := toCoeff?_eq_some h <;> exact Iff.rfl

theorem acts_of_toCoeff? (h : v.toCoeff? = some c) : v.Acts z c.kind c.action := (acts_iff h).2 ⟨rfl, rfl⟩

theorem Acts.toPoly {x : Text} (h : v.Acts z k A) : (v.toPoly x).Acts z k A := by
  cases v with
  | polynomial p => exact h
  | number y =>
    obtain ⟨rfl, rfl⟩ := h
    exact Poly.constant_acts (.scalar y.toGaussian)
  | matrix m =>
    obtain ⟨rfl, rfl⟩ := h
    exact Poly.constant_acts (.matrix m)

/-- A value is a coefficient or a polynomial. -/
theorem toCoeff?_or_polynomial (v : Value) : (∃ c, v.toCoeff? = some c) ∨ ∃ p, v = .polynomial p := by
  cases v with
  | number y => exact .inl ⟨_, rfl⟩
  | matrix m => exact .inl ⟨_, rfl⟩
  | polynomial p => exact .inr ⟨p, rfl⟩

/-- An operation that is one of coefficients and one of polynomials. -/
theorem Acts.combine {operation : Value → Value → Outcome Value} (polynomials : Poly → Poly → Outcome Poly)
    (coefficients : Coeff → Coeff → Outcome Coeff) {C : Action}
    (left : ∀ p w, operation (.polynomial p) w = (polynomials p (w.toPoly p.var)).map .polynomial)
    (right : ∀ {v a} q, v.toCoeff? = some a →
      operation v (.polynomial q) = (polynomials (v.toPoly q.var) q).map .polynomial)
    (plain : ∀ {v w r a b}, v.toCoeff? = some a → w.toCoeff? = some b → operation v w = .ok r →
      ∃ c, r.toCoeff? = some c ∧ coefficients a b = .ok c)
    (ofPoly : ∀ {p q r : Poly}, p.Acts z k A → q.Acts z l B → polynomials p q = .ok r → r.Acts z m C)
    (ofCoeff : ∀ {a b c : Coeff}, a.kind = k → a.action = A → b.kind = l → b.action = B → coefficients a b = .ok c →
      c.kind = m ∧ c.action = C)
    (hv : v.Acts z k A) (hw : w.Acts z l B) (h : operation v w = .ok r) : r.Acts z m C := by
  rcases v.toCoeff?_or_polynomial with ⟨a, ha⟩ | ⟨p, rfl⟩
  · rcases w.toCoeff?_or_polynomial with ⟨b, hb⟩ | ⟨q, rfl⟩
    · obtain ⟨c, hc, run⟩ := plain ha hb h
      obtain ⟨rfl, rfl⟩ := (acts_iff ha).1 hv
      obtain ⟨rfl, rfl⟩ := (acts_iff hb).1 hw
      obtain ⟨kind, action⟩ := ofCoeff rfl rfl rfl rfl run
      exact (acts_iff hc).2 ⟨kind.symm, action⟩
    · rw [right q ha] at h
      obtain ⟨s, run, rfl⟩ := Outcome.map_eq_ok.1 h
      exact ofPoly hv.toPoly hw run
  · rw [left p w] at h
    obtain ⟨s, run, rfl⟩ := Outcome.map_eq_ok.1 h
    exact ofPoly hv hw.toPoly run

theorem Acts.add (hv : v.Acts z k A) (hw : w.Acts z k B) (h : v.add w = .ok r) : r.Acts z k (A + B) := by
  refine Acts.combine Poly.add Coeff.add (fun p w => ?_) (fun q ha => ?_) toCoeff?_add Poly.Acts.add ?_ hv hw h
  · cases w <;> rfl
  · obtain ⟨y, rfl, -⟩ | ⟨m, rfl, -⟩ := toCoeff?_eq_some ha <;> rfl
  · rintro a b c rfl rfl - rfl sum
    exact ⟨(Coeff.kind_add sum).1.symm, Coeff.action_add sum⟩

theorem Acts.sub (hv : v.Acts z k A) (hw : w.Acts z k B) (h : v.sub w = .ok r) : r.Acts z k (A - B) := by
  refine Acts.combine (fun p q => p.add q.neg) (fun a b => a.add b.neg) (fun p w => ?_) (fun q ha => ?_) toCoeff?_sub
    (fun hp hq sum => ?_) ?_ hv hw h
  · cases w <;> rfl
  · obtain ⟨y, rfl, -⟩ | ⟨m, rfl, -⟩ := toCoeff?_eq_some ha <;> rfl
  · rw [sub_eq_add_neg]
    exact hp.add hq.neg sum
  · rintro a b c rfl rfl - rfl sum
    rw [sub_eq_add_neg, ← Coeff.action_neg]
    exact ⟨(Coeff.kind_add sum).1.symm, Coeff.action_add sum⟩

theorem Acts.mul (hv : v.Acts z k A) (hw : w.Acts z l B) (kinds : Kind.mul k l = some m) (h : v.mul w = .ok r) :
    r.Acts z m (A * B) := by
  refine Acts.combine Poly.mul Coeff.mul (fun p w => ?_) (fun q ha => ?_) toCoeff?_mul
    (fun hp hq => hp.mul hq kinds) ?_ hv hw h
  · cases w <;> rfl
  · obtain ⟨y, rfl, -⟩ | ⟨m, rfl, -⟩ := toCoeff?_eq_some ha <;> rfl
  · rintro a b c rfl rfl rfl rfl product
    exact ⟨Option.some.inj ((Coeff.kind_mul product).symm.trans kinds), Coeff.action_mul product⟩

theorem Acts.neg (hv : v.Acts z k A) : v.neg.Acts z k (-A) := by
  rcases v.toCoeff?_or_polynomial with ⟨a, ha⟩ | ⟨p, rfl⟩
  · obtain ⟨rfl, rfl⟩ := (acts_iff ha).1 hv
    exact (acts_iff (toCoeff?_neg ha)).2 ⟨a.kind_neg.symm, a.action_neg⟩
  · exact Poly.Acts.neg hv

/-! ### Powers -/

theorem Acts.repeated {n : Nat} (hv : v.Acts z k A) (square : Kind.mul k k = some k) (positive : n ≠ 0)
    (h : v.repeated n = .ok r) : r.Acts z k (A ^ n) := by
  induction n generalizing r with
  | zero => exact absurd rfl positive
  | succ n ih =>
    cases n with
    | zero =>
      cases h
      rwa [pow_one]
    | succ n =>
      obtain ⟨s, before, product⟩ := Outcome.bind_eq_ok.1 h
      rw [pow_succ]
      exact (ih n.succ_ne_zero before).mul hv square product

theorem Acts.powerInt {n : Nat} (hv : v.Acts z k A) (square : Kind.mul k k = some k) (positive : n ≠ 0)
    (h : powerInt n v = .ok r) : r.Acts z k (A ^ n) := by
  rcases v.toCoeff?_or_polynomial with ⟨a, ha⟩ | ⟨p, rfl⟩
  · obtain ⟨s, squared, multiplied⟩ := (hasPowers_of_powerInt ha h).power_eq_repeated n
    cases squared.symm.trans h
    exact hv.repeated square positive multiplied
  · rw [Value.powerInt, if_pos (Int.natCast_nonneg n), Int.toNat_natCast] at h
    obtain ⟨q, power, rfl⟩ := Outcome.map_eq_ok.1 h
    exact Poly.Acts.power hv square positive power

/-! ### Quotients -/

/-- A constant that acts as a number is that number. -/
theorem coefficient_of_acts {q : Poly} {y : Gaussian} (h : q.Acts z none (Coeff.scalar y).action)
    (constant : q.isConstant = true) : q.coefficient 0 = .scalar y := by
  rcases h.of_isConstant constant with ⟨-, coefficient, zero⟩ | ⟨kind, action⟩
  · rw [coefficient]
    refine Coeff.eq_of_action rfl ?_
    rw [zero]
    exact zero_smul Gaussian (1 : Action)
  · exact Coeff.eq_of_action kind action

/-- The divisor that what acts as a number is. -/
theorem divisor_of_acts {p : Poly} {d : Coeff} {y : Gaussian} (hw : w.Acts z none (Coeff.scalar y).action)
    (h : divisor p w = .ok d) : d = .scalar y := by
  cases w with
  | number x =>
    obtain rfl : x.toGaussian = y := Coeff.scalar.inj (Coeff.eq_of_action rfl hw.2)
    rw [divisor] at h
    split at h
    · cases h
    · cases h
      rfl
  | matrix m => cases hw.1
  | polynomial q =>
    rw [divisor] at h
    split at h
    · cases h
    next constant =>
      split at h
      · cases h
      · cases h
        exact coefficient_of_acts hw (by simpa using constant)

/-- A quotient by what acts as a number that is not zero. -/
theorem Acts.divide {y : Gaussian} (nonzero : y ≠ 0) (hv : v.Acts z k A)
    (hw : w.Acts z none (Coeff.scalar y).action) (h : v.divide w = .ok r) : r.Acts z k (y⁻¹ • A) := by
  rcases v.toCoeff?_or_polynomial with ⟨a, ha⟩ | ⟨p, rfl⟩
  · obtain ⟨rfl, rfl⟩ := (acts_iff ha).1 hv
    rcases w.toCoeff?_or_polynomial with ⟨b, hb⟩ | ⟨q, rfl⟩
    · obtain ⟨c, hc, run⟩ := toCoeff?_divide ha hb h
      obtain ⟨kind, action⟩ := (acts_iff hb).1 hw
      obtain rfl : b = .scalar y := Coeff.eq_of_action kind.symm action
      obtain ⟨kind, action⟩ := Coeff.divide_scalar nonzero run
      exact (acts_iff hc).2 ⟨kind.symm, action⟩
    · have byPolynomial : divide.byPolynomial v a q = .ok r := by
        obtain ⟨x, rfl, rfl⟩ | ⟨m, rfl, rfl⟩ := toCoeff?_eq_some ha <;> exact h
      unfold divide.byPolynomial at byPolynomial
      split at byPolynomial
      · cases byPolynomial
      next constant =>
        split at byPolynomial
        · cases byPolynomial
        obtain ⟨c, run, made⟩ := Outcome.bind_eq_ok.1 byPolynomial
        cases made
        rw [coefficient_of_acts hw (by simpa using constant)] at run
        obtain ⟨kind, action⟩ := Coeff.divide_scalar nonzero run
        rw [← kind, ← action]
        exact Poly.constant_acts c
  · obtain ⟨d, divisor, h⟩ := Outcome.bind_eq_ok.1 h
    obtain ⟨s, run, h⟩ := Outcome.bind_eq_ok.1 h
    cases h
    obtain rfl := divisor_of_acts hw divisor
    exact Poly.Acts.divide nonzero hv run

/-! ### Simplest kinds -/

theorem simplify_toValue (c : Coeff) : c.toValue.simplify = c.toValue := by
  cases c with
  | scalar z =>
    show number (Number.ofGaussian (Number.ofGaussian z).toGaussian) = _
    rw [Number.toGaussian_ofGaussian]
    rfl
  | matrix m => rfl

theorem simplify_simplify (v : Value) : v.simplify.simplify = v.simplify := by
  cases v with
  | number x => exact simplify_toValue (.scalar x.toGaussian)
  | matrix m => rfl
  | polynomial p =>
    by_cases constant : p.isConstant = true
    · rw [Value.simplify, if_pos constant, simplify_toValue]
    · rw [Value.simplify, if_neg constant, Value.simplify, if_neg constant]

/-- The simplest kind acts alike, and is of the same kind unless there is no term: then it is a number, a zero. -/
theorem Acts.simplify (h : v.Acts z k A) : v.simplify.Acts z k A ∨
    (∃ p, v = .polynomial p ∧ p.terms = []) ∧ v.simplify = rational 0 ∧ A = 0 := by
  rcases v.toCoeff?_or_polynomial with ⟨a, ha⟩ | ⟨p, rfl⟩
  · exact .inl ((acts_iff (toCoeff?_simplify ha)).2 ((acts_iff ha).1 h))
  · rw [Value.simplify]
    split
    next constant =>
      rcases Poly.Acts.of_isConstant h constant with ⟨terms, coefficient, zero⟩ | ⟨kind, action⟩
      · rw [coefficient]
        exact .inr ⟨⟨p, rfl, terms⟩, rfl, zero⟩
      · exact .inl ((acts_iff (toCoeff?_toValue _)).2 ⟨kind.symm, action⟩)
    · exact .inl h

/-- A polynomial without terms is not in its simplest kind. -/
theorem terms_of_simplify {p : Poly} (h : v.simplify = .polynomial p) : p.terms ≠ [] := by
  intro empty
  cases v with
  | number x => cases h
  | matrix m => cases h
  | polynomial q =>
    rw [Value.simplify] at h
    split at h
    · cases toCoeff : q.coefficient 0 <;> rw [toCoeff] at h <;> cases h
    next varies =>
      cases h
      refine varies (beq_iff_eq.2 ?_)
      rw [Poly.degree, empty]
      rfl

/-- A value acts in one way, and is of one kind unless it is a polynomial without terms. -/
theorem Acts.unique (h : v.Acts z k A) (h' : v.Acts z l B) :
    A = B ∧ (k = l ∨ ∃ p, v = .polynomial p ∧ p.terms = []) := by
  rcases v.toCoeff?_or_polynomial with ⟨a, ha⟩ | ⟨p, rfl⟩
  · obtain ⟨rfl, rfl⟩ := (acts_iff ha).1 h
    obtain ⟨rfl, rfl⟩ := (acts_iff ha).1 h'
    exact ⟨rfl, .inl rfl⟩
  · refine ⟨h.2.symm.trans h'.2, ?_⟩
    cases terms : p.terms with
    | nil => exact .inr ⟨p, rfl, terms⟩
    | cons t ts =>
      have first : t ∈ p.terms := terms ▸ List.mem_cons_self
      exact .inl ((h.1 t first).symm.trans (h'.1 t first))

end Value

end Reckoner
