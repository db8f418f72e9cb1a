import Reckoner.Proofs.Expression.Evaluation
import Reckoner.Proofs.Value.Power
/-!
# Numbers that were not simplified

What an operation makes of complex numbers is complex even if it is real. Beside the rational number of the same value it
behaves alike under every operation but remainders: both results are the same up to that difference, or both operations
fail. Complex numbers have no remainders, so there the wider number is refused.
-/

namespace Reckoner

/-- The right value is the left one. If `wide` holds, it may also be a rational number as a complex one. -/
inductive Value.Widens (wide : Prop) : Value → Value → Prop where
  | refl (v : Value) : Widens wide v v
  | wider (allowed : wide) (q : Rat) : Widens wide (rational q) (complex (Gaussian.ofRat q))

/-- The right outcome is what the left one is with a wider value, or both fail. If `wide` holds, the right one may also
have been refused because complex numbers have no remainders. -/
inductive Outcome.Widens (wide : Prop) : Outcome Value → Outcome Value → Prop where
  | value {v w : Value} : v.Widens wide w → Widens wide (.ok v) (.ok w)
  | failure (d e : Failure) : Widens wide (.error d) (.error e)
  | remainder (allowed : wide) (x : Outcome Value) : Widens wide x (refuse .complexModulo)

namespace Outcome.Widens

variable {wide : Prop} {x y : Outcome Value}

theorem refl (x : Outcome Value) : Widens wide x x := by
  cases x with
  | ok v => exact .value (.refl v)
  | error e => exact .failure e e

theorem of_eq (h : x = y) : Widens wide x y := h ▸ refl x

/-- A number beside the complex number of equal value. -/
theorem of_complex (allowed : wide) {a : Number} {z : Gaussian} (h : a.toGaussian = z) :
    Widens wide (.ok (.number a)) (.ok (Value.complex z)) := by
  subst h
  cases a with
  | rational q => exact .value (.wider allowed q)
  | complex z => exact refl _

theorem bind {f g : Value → Outcome Value} (h : Widens wide x y)
    (next : ∀ {v w : Value}, v.Widens wide w → Widens wide (f v) (g w)) : Widens wide (x >>= f) (y >>= g) := by
  cases h with
  | value widens => exact next widens
  | failure d e => exact .failure d e
  | remainder allowed x => exact .remainder allowed _

end Outcome.Widens

namespace Value.Widens

variable {wide : Prop} {v v' w w' : Value}

/-- Simplified, both values are one. -/
theorem simplify_eq (h : v.Widens wide w) : v.simplify = w.simplify := by
  cases h <;> rfl

theorem simplify (h : v.Widens wide w) : v.simplify.Widens wide w.simplify := h.simplify_eq ▸ .refl _

/-! ## Sums and products -/

theorem neg (h : v.Widens wide w) : v.neg.Widens wide w.neg := by
  cases h with
  | refl => exact .refl _
  | wider allowed q =>
    show (rational (-q)).Widens wide (complex (-Gaussian.ofRat q))
    rw [← Gaussian.ofRat_neg]
    exact .wider allowed (-q)

/-- An operation that is exact on numbers, complex as soon as one of them is, and that takes nothing but the value of a
number beside other values. -/
theorem combine {operation : Value → Value → Outcome Value} {f : Number → Number → Number}
    {ideal : Gaussian → Gaussian → Gaussian} (numbers : ∀ a b, operation (number a) (number b) = .ok (number (f a b)))
    (exact : ∀ a b, (f a b).toGaussian = ideal a.toGaussian b.toGaussian)
    (left : ∀ z b, f (.complex z) b = .complex (ideal z b.toGaussian))
    (right : ∀ a z, f a (.complex z) = .complex (ideal a.toGaussian z))
    (before : ∀ q w, w.toNumber? = none →
      Outcome.Widens wide (operation (rational q) w) (operation (complex (.ofRat q)) w))
    (after : ∀ v r, v.toNumber? = none →
      Outcome.Widens wide (operation v (rational r)) (operation v (complex (.ofRat r))))
    (hv : v.Widens wide v') (hw : w.Widens wide w') : Outcome.Widens wide (operation v w) (operation v' w') := by
  cases hv with
  | refl =>
    cases hw with
    | refl => exact .refl _
    | wider allowed r =>
      cases v with
      | number a =>
        rw [rational, complex, numbers, numbers, right]
        exact .of_complex allowed (exact a _)
      | matrix m => exact after _ r rfl
      | polynomial p => exact after _ r rfl
  | wider allowed q =>
    cases hw with
    | refl =>
      cases w with
      | number b =>
        rw [rational, complex, numbers, numbers, left]
        exact .of_complex allowed (exact _ b)
      | matrix m => exact before q _ rfl
      | polynomial p => exact before q _ rfl
    | wider _ r =>
      rw [rational, rational, complex, complex, numbers, numbers, left]
      exact .of_complex allowed (exact _ _)

theorem add (hv : v.Widens wide v') (hw : w.Widens wide w') : Outcome.Widens wide (v.add w) (v'.add w') := by
  refine combine (fun _ _ => rfl) Number.toGaussian_add (fun _ _ => rfl) (fun a _ => by cases a <;> rfl)
    (fun q w other => ?_) (fun v r other => ?_) hv hw
  · cases w with
    | number b => cases other
    | matrix m => exact .failure _ _
    | polynomial p => exact .refl _
  · cases v with
    | number a => cases other
    | matrix m => exact .failure _ _
    | polynomial p => exact .refl _

theorem sub (hv : v.Widens wide v') (hw : w.Widens wide w') : Outcome.Widens wide (v.sub w) (v'.sub w') := by
  refine combine (fun _ _ => rfl) Number.toGaussian_sub (fun _ _ => rfl) (fun a _ => by cases a <;> rfl)
    (fun q w other => ?_) (fun v r other => ?_) hv hw
  · cases w with
    | number b => cases other
    | matrix m => exact .failure _ _
    | polynomial p => exact .refl _
  · cases v with
    | number a => cases other
    | matrix m => exact .failure _ _
    | polynomial p => exact .refl _

theorem mul (hv : v.Widens wide v') (hw : w.Widens wide w') : Outcome.Widens wide (v.mul w) (v'.mul w') := by
  refine combine (fun _ _ => rfl) Number.toGaussian_mul (fun _ _ => rfl) (fun a _ => by cases a <;> rfl)
    (fun q w other => ?_) (fun v r other => ?_) hv hw
  · cases w with
    | number b => cases other
    | _ => exact .refl _
  · cases v with
    | number a => cases other
    | _ => exact .refl _

/-! ## Quotients and remainders -/

theorem complex_divide (z : Gaussian) (b : Number) :
    (complex z).divide (number b) = (z.divide b.toGaussian).map complex := by
  show ((z.divide b.toGaussian).map Number.complex).map number = _
  cases z.divide b.toGaussian <;> rfl

theorem divide_complex (a : Number) (z : Gaussian) :
    (number a).divide (complex z) = (a.toGaussian.divide z).map complex := by
  have divided : (number a).divide (complex z) = ((a.toGaussian.divide z).map Number.complex).map number := by
    cases a <;> rfl
  rw [divided]
  cases a.toGaussian.divide z <;> rfl

theorem divide_numbers (allowed : wide) (a b : Number) :
    Outcome.Widens wide ((number a).divide (number b)) ((a.toGaussian.divide b.toGaussian).map complex) := by
  show Outcome.Widens wide ((a.divide b).map number) _
  by_cases zero : b.toGaussian = 0
  · rw [Number.divide_zero zero, Gaussian.divide, if_pos zero]
    exact .failure _ _
  · obtain ⟨c, run, value⟩ := Number.divide_nonzero (a := a) zero
    rw [run, Gaussian.divide, if_neg zero]
    exact .of_complex allowed (value.trans (div_eq_mul_inv _ _).symm)

theorem divide (hv : v.Widens wide v') (hw : w.Widens wide w') : Outcome.Widens wide (v.divide w) (v'.divide w') := by
  cases hv with
  | refl =>
    cases hw with
    | refl => exact .refl _
    | wider allowed r =>
      cases v with
      | number a =>
        rw [divide_complex]
        exact divide_numbers allowed a (.rational r)
      | matrix m => exact .refl _
      | polynomial p => exact .refl _
  | wider allowed q =>
    cases hw with
    | refl =>
      cases w with
      | number b =>
        rw [complex_divide]
        exact divide_numbers allowed (.rational q) b
      | matrix m => exact .failure _ _
      | polynomial p =>
        -- Only the text of the dividend differs, in a refusal.
        show Outcome.Widens wide (divide.byPolynomial _ _ p) (divide.byPolynomial _ _ p)
        unfold divide.byPolynomial
        split
        · exact .failure _ _
        · exact .refl _
    | wider _ r =>
      rw [complex, divide_complex]
      exact divide_numbers allowed (.rational q) (.rational r)

/-- A remainder of a polynomial by a complex number is refused, unless there is no coefficient to take it of, or the first one
is a matrix, which has no remainders at all. -/
theorem modulo_polynomial (allowed : wide) (p : Poly) (r : Rat) :
    Outcome.Widens wide ((polynomial p).modulo (rational r)) ((polynomial p).modulo (complex (.ofRat r))) := by
  show Outcome.Widens wide
    (divisor p (rational r) >>= fun _ => p.mapCoeffs (·.modulo (.rational r)) >>= fun q => .ok (polynomial q))
    (divisor p (rational r) >>= fun _ => p.mapCoeffs (·.modulo .complex) >>= fun q => .ok (polynomial q))
  cases divisor p (rational r) with
  | error e => exact .failure _ _
  | ok d =>
    show Outcome.Widens wide (p.mapCoeffs _ >>= _) (p.mapCoeffs _ >>= _)
    rw [Poly.mapCoeffs, Poly.mapCoeffs]
    cases p.terms with
    | nil => exact .refl _
    | cons t ts =>
      obtain ⟨n, c⟩ := t
      rw [List.mapM_cons, List.mapM_cons]
      cases c with
      | matrix m => exact .failure _ _
      | scalar z =>
        have refused : (Coeff.scalar z).modulo .complex = refuse .complexModulo := by
          rw [Coeff.modulo]
          split <;> rfl
        rw [refused]
        exact .remainder allowed _

theorem modulo (hv : v.Widens wide v') (hw : w.Widens wide w') : Outcome.Widens wide (v.modulo w) (v'.modulo w') := by
  cases hv with
  | wider allowed q => exact .remainder allowed _
  | refl =>
    cases hw with
    | refl => exact .refl _
    | wider allowed r =>
      cases v with
      | matrix m => exact .failure _ _
      | number a => cases a <;> exact .remainder allowed _
      | polynomial p => exact modulo_polynomial allowed p r

/-! ## Powers -/

theorem powerInt (n : Int) (h : v.Widens wide w) : Outcome.Widens wide (Value.powerInt n v) (Value.powerInt n w) := by
  cases h with
  | refl => exact .refl _
  | wider allowed q =>
    have mapped : Value.powerInt n (complex (.ofRat q)) = ((Gaussian.ofRat q).power n).map complex := by
      show (((Gaussian.ofRat q).power n).map Number.complex).map number = _
      cases (Gaussian.ofRat q).power n <;> rfl
    rw [mapped]
    show Outcome.Widens wide (((Number.rational q).power n).map number) _
    by_cases sign : 0 ≤ n
    · obtain ⟨b, run, value⟩ := Number.power_of_nonneg (a := .rational q) sign
      rw [run, Gaussian.power_of_nonneg sign]
      exact .of_complex allowed value
    · by_cases zero : Gaussian.ofRat q = 0
      · cases power : (Number.rational q).power n with
        | ok b => exact absurd power (Number.power_ne_ok zero (not_le.1 sign))
        | error e =>
          rw [Gaussian.power, if_neg sign, if_pos zero]
          exact .failure _ _
      · obtain ⟨b, run, value⟩ := Number.power_of_ne_zero (a := .rational q) (n := n) zero
        rw [run, Gaussian.power_of_ne_zero zero]
        exact .of_complex allowed value

/-- The exponent that a value is taken as depends on its simplest kind only. -/
theorem exponent_eq (h : v.Widens wide w) : v.exponent = w.exponent := by
  cases h <;> rfl

theorem power (hv : v.Widens wide v') (hw : w.Widens wide w') : Outcome.Widens wide (v.power w) (v'.power w') := by
  cases hv with
  | refl =>
    refine .of_eq ?_
    unfold Value.power
    rw [hw.exponent_eq]
  | wider allowed q =>
    show Outcome.Widens wide (w.exponent >>= fun n => Value.powerInt n _) (w'.exponent >>= fun n => Value.powerInt n _)
    rw [hw.exponent_eq]
    cases w'.exponent with
    | error e => exact .failure _ _
    | ok n => exact powerInt n (.wider allowed q)

end Value.Widens

theorem Operator.apply_widens {wide : Prop} (o : Operator) {v v' w w' : Value} (hv : v.Widens wide v')
    (hw : w.Widens wide w') : Outcome.Widens wide (o.apply v w) (o.apply v' w') := by
  cases o with
  | plus => exact hv.add hw
  | minus => exact hv.sub hw
  | times | matrixTimes => exact hv.mul hw
  | divide => exact hv.divide hw
  | modulo => exact hv.modulo hw
  | power => exact hv.power hw

/-! ## Calls -/

namespace Poly

variable {wide : Prop} {v w : Value}

theorem termValue_widens (h : v.Widens wide w) (t : Nat × Coeff) :
    Outcome.Widens wide (termValue v t) (termValue w t) := by
  unfold termValue
  split
  · exact .refl _
  · exact (h.powerInt t.1).bind fun power => (Value.Widens.refl _).mul power

theorem sumTerms_widens (h : v.Widens wide w) (ts : Terms) {s s' : Value} (hs : s.Widens wide s') :
    Outcome.Widens wide (ts.foldlM (fun sum t => do sum.add (← termValue v t)) s)
      (ts.foldlM (fun sum t => do sum.add (← termValue w t)) s') := by
  induction ts generalizing s s' with
  | nil => exact .value hs
  | cons t ts ih =>
    rw [List.foldlM_cons, List.foldlM_cons]
    exact ((termValue_widens h t).bind fun term => hs.add term).bind ih

theorem eval_widens (p : Poly) (h : v.Widens wide w) : Outcome.Widens wide (p.eval v) (p.eval w) := by
  unfold Poly.eval
  cases p.terms.reverse with
  | nil => exact .refl _
  | cons t ts =>
    exact (termValue_widens h t).bind fun first => (sumTerms_widens h ts first).bind fun sum => .value sum.simplify

end Poly

theorem NamedFunction.eval_widens {wide : Prop} {v w : Value} (f : NamedFunction) (h : v.Widens wide w) :
    Outcome.Widens wide (f.eval v) (f.eval w) := by
  obtain ⟨name, parameter, body⟩ := f
  cases body with
  | polynomial p => exact p.eval_widens h
  | _ => exact .refl _

end Reckoner
