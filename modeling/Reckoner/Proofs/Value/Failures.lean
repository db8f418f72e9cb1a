import Reckoner.Proofs.Outcome
import Reckoner.Proofs.Expression.Conversion
/-!
# How arithmetic fails

Operators on values refuse operands, and the pivots of an inverse may be too large for doubles. No operator reports
anything about the text of an expression or about names.
-/

namespace Reckoner

/-- Whether a failure is about values: not about the form of a text, and not about names. -/
def Failure.isArithmetic : Failure → Bool
  | .fault f =>
    match f.family with
    | .malformed | .semantic | .undefinedName => false
    | _ => true
  | .overflow => true
  | _ => false

/-- An outcome that fails only for its values. -/
abbrev Outcome.Arithmetic {α : Type} (x : Outcome α) : Prop := x.FailsOnly Failure.isArithmetic

/-- Whether an input is refused for its values. -/
def Failure.isRefusal : Failure → Bool
  | .fault f => (Failure.fault f).isArithmetic
  | _ => false

/-- An outcome that fails only by a refusal of values. -/
abbrev Outcome.Refusing {α : Type} (x : Outcome α) : Prop := x.FailsOnly Failure.isRefusal

theorem Outcome.Refusing.arithmetic {α : Type} {x : Outcome α} (h : x.Refusing) : x.Arithmetic :=
  h.mono fun e he => by
    cases e with
    | fault f => exact he
    | _ => cases he

open Outcome (FailsOnly Arithmetic Refusing)

/-! ## Numbers -/

namespace Rational

theorem divide_refusing (a b : Rat) : Refusing (divide a b) := by
  unfold divide
  split
  · exact .refuse rfl
  · exact .ok _

theorem modulo_refusing (a b : Rat) : Refusing (modulo a b) := by
  unfold modulo
  split
  · exact .refuse rfl
  · exact .ok _

theorem power_refusing (q : Rat) (n : Int) : Refusing (power q n) := by
  unfold power
  split
  · exact .ok _
  · split
    · exact .refuse rfl
    · exact .ok _

theorem toDouble_arithmetic (q : Rat) : Arithmetic (toDouble q) := by
  unfold toDouble
  split
  · exact .ok _
  · exact .error rfl

theorem readDecimal_refusing (t : Text) : Refusing (readDecimal t) := by
  unfold readDecimal
  split
  · exact .ok _
  · exact .refuse rfl

theorem parse_refusing (t : Text) : Refusing (parse t) := by
  simp only [parse]
  split
  · exact .refuse rfl
  · split
    · exact readDecimal_refusing _
    · split
      · exact .refuse rfl
      · refine .bind (readDecimal_refusing _) fun a _ => .bind (readDecimal_refusing _) fun b _ => ?_
        split
        · exact .refuse rfl
        · exact .ok _

end Rational

namespace Gaussian

theorem divide_refusing (z w : Gaussian) : Refusing (z.divide w) := by
  unfold divide
  split
  · exact .refuse rfl
  · exact .ok _

theorem power_refusing (z : Gaussian) (n : Int) : Refusing (z.power n) := by
  unfold power
  split
  · exact .ok _
  · split
    · exact .refuse rfl
    · exact .ok _

theorem magnitude_arithmetic (z : Gaussian) : Arithmetic z.magnitude :=
  .bind (.bind (Rational.toDouble_arithmetic _) fun _ _ => .bind (Rational.toDouble_arithmetic _) fun _ _ => .ok _)
    fun _ _ => .ok _

theorem readRational?_refusing (t : Text) : Refusing (readImaginary?.readRational? t) := by
  unfold readImaginary?.readRational?
  split
  · exact .ok _
  · exact .refuse rfl
  · exact .ok _

theorem readImaginary?_refusing (t : Text) : Refusing (readImaginary? t) := by
  unfold readImaginary?
  split
  · exact .ok _
  · simp only
    split
    · exact .ok _
    · split
      · exact .ok _
      · split
        · exact .ok _
        · exact readRational?_refusing _

theorem parse_refusing (t : Text) : Refusing (parse t) := by
  simp only [parse]
  split
  · exact .refuse rfl
  · split
    · exact .map _ (Rational.parse_refusing _)
    · split
      · exact .refuse rfl
      · split
        case' isTrue => refine .bind (.ok _) fun real _ => ?_
        case' isFalse => refine .bind (readRational?_refusing _) fun real _ => ?_
        -- Both readings of the real part go on the same way.
        all_goals
          split
          · exact .refuse rfl
          · refine .bind (readImaginary?_refusing _) fun imaginary _ => ?_
            split
            · exact .refuse rfl
            · exact .ok _

end Gaussian

namespace Number

theorem divide_refusing (x y : Number) : Refusing (x.divide y) := by
  unfold divide
  split
  · exact .map _ (Rational.divide_refusing _ _)
  · exact .map _ (Gaussian.divide_refusing _ _)

theorem modulo_refusing (x y : Number) : Refusing (x.modulo y) := by
  unfold modulo
  split
  · exact .map _ (Rational.modulo_refusing _ _)
  · exact .refuse rfl

theorem power_refusing (x : Number) (n : Int) : Refusing (x.power n) := by
  cases x with
  | rational q => exact .map _ (Rational.power_refusing q n)
  | complex z => exact .map _ (Gaussian.power_refusing z n)

end Number

/-! ## Matrices -/

namespace Grid

variable {n : Nat}

theorem largestPivot_arithmetic (column : Fin n) (g : Grid n n) : Arithmetic (largestPivot column g) := by
  refine .bind (.mapM (fun row => .bind (Gaussian.magnitude_arithmetic _) fun _ _ => .ok _) _) fun sizes _ => ?_
  split
  · exact .ok _
  · exact .ok _

theorem eliminate_arithmetic {rule : PivotRule n} (h : ∀ column g, Arithmetic (rule column g)) (columns : List (Fin n))
    (left right : Grid n n) : Arithmetic (eliminate rule columns left right) := by
  induction columns generalizing left right with
  | nil => exact .ok _
  | cons column rest ih =>
    refine .bind (h column left) fun pivot _ => ?_
    split
    · exact .refuse rfl
    · exact ih _ _

theorem inverse_arithmetic (g : Grid n n) : Arithmetic g.inverse := by
  unfold inverse inverseWith
  split
  · exact .refuse rfl
  · exact eliminate_arithmetic largestPivot_arithmetic _ _ _

end Grid

namespace Mat

theorem ofRows_refusing (rows : List (List Gaussian)) : Refusing (ofRows rows) := by
  simp only [ofRows]
  split
  · split
    · exact .ok _
    · exact .refuse rfl
  · exact .refuse rfl

theorem zipWith_refusing (operation : String) (f : Gaussian → Gaussian → Gaussian) (a b : Mat) :
    Refusing (zipWith operation f a b) := by
  unfold zipWith
  split
  · exact .ok _
  · exact .refuse rfl

theorem mul_refusing (a b : Mat) : Refusing (a.mul b) := by
  unfold mul
  split
  · exact .ok _
  · exact .refuse rfl

theorem scaleDown_refusing (m : Mat) (z : Gaussian) : Refusing (m.scaleDown z) := by
  unfold scaleDown
  split
  · exact .refuse rfl
  · exact .ok _

theorem power_arithmetic (m : Mat) (n : Int) : Arithmetic (m.power n) := by
  rw [power_eq, onSquare]
  split
  · split
    · exact .ok _
    · exact .bind (Grid.inverse_arithmetic _) fun _ _ => .ok _
  · exact .refuse rfl

/-- Without an inverse nothing is too large. -/
theorem power_refusing (m : Mat) {n : Int} (natural : 0 ≤ n) : Refusing (m.power n) := by
  simp only [power_eq, onSquare, if_pos natural]
  split
  · exact .ok _
  · exact .refuse rfl

end Mat

/-! ## Polynomials -/

namespace Coeff

theorem add_refusing (a b : Coeff) : Refusing (a.add b) := by
  unfold add
  split
  · exact .ok _
  · exact .map _ (Mat.zipWith_refusing _ _ _ _)
  · exact .refuse rfl
  · exact .refuse rfl

theorem mul_refusing (a b : Coeff) : Refusing (a.mul b) := by
  unfold mul
  split
  · exact .ok _
  · exact .map _ (Mat.mul_refusing _ _)
  · exact .ok _
  · exact .ok _

theorem divide_refusing (a b : Coeff) : Refusing (a.divide b) := by
  unfold divide
  split
  · exact .map _ (Gaussian.divide_refusing _ _)
  · exact .map _ (Mat.scaleDown_refusing _ _)
  · exact .refuse rfl
  · exact .refuse rfl

theorem modulo_refusing (a : Coeff) (m : Modulus) : Refusing (a.modulo m) := by
  unfold modulo
  split
  · exact .refuse rfl
  · split
    · split
      · exact .map _ (Rational.modulo_refusing _ _)
      · exact .refuse rfl
      · exact .refuse rfl
    · exact .refuse rfl

end Coeff

theorem Terms.add_refusing (power : Nat) (c : Coeff) (ts : Terms) : Refusing (Terms.add power c ts) := by
  induction ts with
  | nil => exact .ok _
  | cons t rest ih =>
    unfold Terms.add
    split
    · exact .ok _
    · split
      · exact .bind (Coeff.add_refusing _ _) fun _ _ => .ok _
      · exact .bind ih fun _ _ => .ok _

namespace Poly

theorem sharedVar_refusing (p q : Poly) : Refusing (p.sharedVar q) := by
  unfold sharedVar
  split
  · exact .ok _
  · split
    · exact .ok _
    · exact .refuse rfl

theorem add_refusing (p q : Poly) : Refusing (p.add q) :=
  .bind (.foldlM (fun _ _ => Terms.add_refusing _ _ _) _ _) fun _ _ =>
    .bind (sharedVar_refusing p q) fun _ _ => .ok _

theorem mul_refusing (p q : Poly) : Refusing (p.mul q) := by
  refine .bind (.foldlM (fun sum s => .foldlM (fun sum t => ?_) _ _) _ _) fun _ _ =>
    .bind (sharedVar_refusing p q) fun _ _ => .ok _
  exact .bind (Coeff.mul_refusing _ _) fun _ _ => Terms.add_refusing _ _ _

theorem powerOnto_refusing (accumulated base : Poly) (n : Nat) : Refusing (powerOnto accumulated base n) := by
  induction n using Nat.strongRecOn generalizing accumulated base with
  | ind n ih =>
    rw [powerOnto]
    split
    · exact .ok _
    · have go : ∀ accumulated base, Refusing (powerOnto accumulated base (n / 2)) := ih (n / 2) (by omega)
      have square : ∀ accumulated, Refusing (if n / 2 = 0 then pure base >>= (powerOnto accumulated · (n / 2))
          else base.mul base >>= (powerOnto accumulated · (n / 2))) := by
        intro accumulated
        split
        · exact .bind (.ok _) fun base _ => go accumulated base
        · exact .bind (mul_refusing _ _) fun base _ => go accumulated base
      simp only
      split
      · exact .bind (mul_refusing _ _) fun accumulated _ => square accumulated
      · exact .bind (.ok _) fun accumulated _ => square accumulated

theorem mapCoeffs_refusing {f : Coeff → Outcome Coeff} (h : ∀ c, Refusing (f c)) (p : Poly) :
    Refusing (p.mapCoeffs f) :=
  .bind (.mapM (fun _ => .bind (h _) fun _ _ => .ok _) _) fun _ _ => .ok _

end Poly

/-! ## Values -/

namespace Value

theorem add_refusing (v w : Value) : Refusing (v.add w) := by
  unfold add
  split
  · exact .map _ (Poly.add_refusing _ _)
  · exact .map _ (Poly.add_refusing _ _)
  · exact .ok _
  · exact .map _ (Mat.zipWith_refusing _ _ _ _)
  · exact .refuse rfl
  · exact .refuse rfl

theorem sub_refusing (v w : Value) : Refusing (v.sub w) := by
  unfold sub
  split
  · exact .map _ (Poly.add_refusing _ _)
  · exact .map _ (Poly.add_refusing _ _)
  · exact .ok _
  · exact .map _ (Mat.zipWith_refusing _ _ _ _)
  · exact .refuse rfl
  · exact .refuse rfl

theorem mul_refusing (v w : Value) : Refusing (v.mul w) := by
  unfold mul
  split
  · exact .map _ (Poly.mul_refusing _ _)
  · exact .map _ (Poly.mul_refusing _ _)
  · exact .ok _
  · exact .map _ (Mat.mul_refusing _ _)
  · exact .ok _
  · exact .ok _

theorem divisor_refusing (p : Poly) (v : Value) : Refusing (divisor p v) := by
  unfold divisor
  split
  · split
    · exact .refuse rfl
    · exact .ok _
  · exact .ok _
  · split
    · exact .refuse rfl
    · split
      · exact .refuse rfl
      · exact .ok _

theorem byPolynomial_refusing (v : Value) (c : Coeff) (q : Poly) : Refusing (divide.byPolynomial v c q) := by
  unfold divide.byPolynomial
  split
  · exact .refuse rfl
  · split
    · exact .refuse rfl
    · exact .bind (Coeff.divide_refusing _ _) fun _ _ => .ok _

theorem divide_refusing (v w : Value) : Refusing (v.divide w) := by
  unfold divide
  split
  · exact .bind (divisor_refusing _ _) fun _ _ =>
      .bind (Poly.mapCoeffs_refusing (fun c => Coeff.divide_refusing c _) _) fun _ _ => .ok _
  · exact .map _ (Number.divide_refusing _ _)
  · exact .map _ (Mat.scaleDown_refusing _ _)
  · exact .refuse rfl
  · exact .refuse rfl
  · exact byPolynomial_refusing _ _ _
  · exact byPolynomial_refusing _ _ _

theorem modulo_refusing (v w : Value) : Refusing (v.modulo w) := by
  unfold modulo
  split
  · exact .bind (divisor_refusing _ _) fun _ _ =>
      .bind (Poly.mapCoeffs_refusing (fun c => Coeff.modulo_refusing c _) _) fun _ _ => .ok _
  · exact .refuse rfl
  · exact .refuse rfl
  · exact .map _ (Number.modulo_refusing _ _)
  · exact .refuse rfl
  · split
    · exact .refuse rfl
    · split
      · exact .refuse rfl
      · exact .bind (Coeff.modulo_refusing _ _) fun _ _ => .ok _

theorem exponent_refusing (v : Value) : Refusing v.exponent := by
  unfold exponent
  split
  · split
    · exact .ok _
    · exact .refuse rfl
  · exact .refuse rfl

theorem coeffPower_arithmetic (n : Int) (c : Coeff) : Arithmetic (coeffPower n c) := by
  unfold coeffPower
  split
  · exact .map _ (Gaussian.power_refusing _ _).arithmetic
  · exact .map _ (Mat.power_arithmetic _ _)

theorem powerInt_arithmetic (n : Int) (v : Value) : Arithmetic (powerInt n v) := by
  unfold powerInt
  split
  · exact .map _ (Number.power_refusing _ _).arithmetic
  · exact .map _ (Mat.power_arithmetic _ _)
  · split
    · exact .map _ (Poly.powerOnto_refusing _ _ _).arithmetic
    · split
      · exact .bind (coeffPower_arithmetic _ _) fun _ _ => .ok _
      · exact .refuse rfl

theorem powerInt_refusing {n : Int} (natural : 0 ≤ n) (v : Value) : Refusing (powerInt n v) := by
  unfold powerInt
  split
  · exact .map _ (Number.power_refusing _ _)
  · exact .map _ (Mat.power_refusing _ natural)
  · rw [if_pos natural]
    exact .map _ (Poly.powerOnto_refusing _ _ _)

theorem power_arithmetic (v w : Value) : Arithmetic (v.power w) := by
  unfold power
  split
  · split
    · exact .refuse rfl
    · exact .bind (exponent_refusing _).arithmetic fun _ _ => powerInt_arithmetic _ _
  · exact .bind (exponent_refusing _).arithmetic fun _ _ => powerInt_arithmetic _ _

end Value

/-- Only a power can be too large. -/
theorem Operator.apply_refusing {o : Operator} (h : o ≠ .power) (v w : Value) : Refusing (o.apply v w) := by
  cases o with
  | plus => exact Value.add_refusing v w
  | minus => exact Value.sub_refusing v w
  | times | matrixTimes => exact Value.mul_refusing v w
  | divide => exact Value.divide_refusing v w
  | modulo => exact Value.modulo_refusing v w
  | power => exact absurd rfl h

theorem Operator.apply_arithmetic (o : Operator) (v w : Value) : Arithmetic (o.apply v w) := by
  by_cases h : o = .power
  · subst h
    exact Value.power_arithmetic v w
  · exact (apply_refusing h v w).arithmetic

/-! ## Substitution -/

theorem Poly.termValue_refusing (v : Value) (t : Nat × Coeff) : Refusing (Poly.termValue v t) := by
  unfold Poly.termValue
  split
  · exact .ok _
  · exact .bind (Value.powerInt_refusing (Int.natCast_nonneg _) _) fun _ _ => Value.mul_refusing _ _

theorem Poly.eval_refusing (p : Poly) (v : Value) : Refusing (p.eval v) := by
  unfold Poly.eval
  split
  · exact .ok _
  · refine .bind (Poly.termValue_refusing _ _) fun first _ => .bind (.foldlM (fun sum t => ?_) _ _) fun _ _ => .ok _
    exact .bind (Poly.termValue_refusing _ _) fun _ _ => Value.add_refusing _ _

theorem NamedFunction.eval_refusing (f : NamedFunction) (v : Value) : Refusing (f.eval v) := by
  unfold NamedFunction.eval
  split
  · exact Poly.eval_refusing _ _
  · exact .ok _

end Reckoner
