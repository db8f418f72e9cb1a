import Reckoner.Value.Basic
/-!
# Mixed arithmetic

One set of operations on values of all kinds. Numbers of two kinds meet as complex numbers; a number and a matrix can
be multiplied but not added; whatever meets a polynomial is taken as a constant polynomial in its variable.
-/

namespace Reckoner.Value

/-! ## Sums and products -/

/-- The sum. -/
def add : Value → Value → Outcome Value
  | .polynomial p, w => (p.add (w.toPoly p.var)).map .polynomial
  | v, .polynomial q => ((v.toPoly q.var).add q).map .polynomial
  | .number x, .number y => .ok (.number (x.add y))
  | .matrix a, .matrix b => (a.add b).map .matrix
  | .matrix a, .number y => refuse (.addScalarToMatrix a.text y.text)
  | .number x, .matrix b => refuse (.addMatrixToScalar x.text b.text)

/-- The difference. -/
def sub : Value → Value → Outcome Value
  | .polynomial p, w => (p.add (w.toPoly p.var).neg).map .polynomial
  | v, .polynomial q => ((v.toPoly q.var).add q.neg).map .polynomial
  | .number x, .number y => .ok (.number (x.sub y))
  | .matrix a, .matrix b => (a.sub b).map .matrix
  | .matrix a, .number y => refuse (.subtractScalarFromMatrix a.text y.text)
  | .number x, .matrix b => refuse (.subtractMatrixFromScalar x.text b.text)

/-- The product. -/
def mul : Value → Value → Outcome Value
  | .polynomial p, w => (p.mul (w.toPoly p.var)).map .polynomial
  | v, .polynomial q => ((v.toPoly q.var).mul q).map .polynomial
  | .number x, .number y => .ok (.number (x.mul y))
  | .matrix a, .matrix b => (a.mul b).map .matrix
  | .matrix a, .number y => .ok (.matrix (a.scale y.toGaussian))
  | .number x, .matrix b => .ok (.matrix (b.scale x.toGaussian))

/-- The opposite. -/
def neg : Value → Value
  | .number x => .number x.neg
  | .matrix m => .matrix m.neg
  | .polynomial p => .polynomial p.neg

/-! ## Quotients and remainders -/

/-- A divisor of the polynomial `p` as a coefficient: zero and polynomials that are not constant are refused. -/
def divisor (p : Poly) : Value → Outcome Coeff
  | .number x => if x.isZero then refuse .divideByZero else .ok (.scalar x.toGaussian)
  | .matrix m => .ok (.matrix m)
  | .polynomial q =>
    if !q.isConstant then refuse (.polynomialDivision p.text q.text)
    else if q.coefficient 0 = .scalar 0 then refuse .divideByZero
    else .ok (q.coefficient 0)

/-- The quotient. -/
def divide : Value → Value → Outcome Value
  | .polynomial p, w => do
    let d ← divisor p w
    return .polynomial (← p.mapCoeffs fun c => c.divide d)
  | .number x, .number y => (x.divide y).map .number
  | .matrix a, .number y => (a.scaleDown y.toGaussian).map .matrix
  | .number x, .matrix b => refuse (.divideScalarByMatrix x.text b.text)
  | .matrix _, .matrix _ => refuse .matrixDivision
  | .number x, .polynomial q => byPolynomial (.number x) (.scalar x.toGaussian) q
  | .matrix a, .polynomial q => byPolynomial (.matrix a) (.matrix a) q
where
  /-- The quotient by a polynomial, which must be a constant. -/
  byPolynomial (v : Value) (c : Coeff) (q : Poly) : Outcome Value :=
    if !q.isConstant then refuse (.divideByPolynomial v.text q.text)
    else if q.isZero then refuse .divideByZero
    else do return .polynomial (Poly.constant q.var (← c.divide (q.coefficient 0)))

/-- What a coefficient allows as a modulus. -/
def coeffModulus : Coeff → Modulus
  | .scalar z => if z.im = 0 then .rational z.re else .complex
  | .matrix _ => .matrix

/-- What a value allows as a modulus of coefficients; a complex number is none even if it is real. -/
def modulus : Value → Modulus
  | .number (.rational q) => .rational q
  | .number (.complex _) => .complex
  | .matrix _ => .matrix
  | .polynomial q => coeffModulus (q.coefficient 0)

/-- The remainder. Complex numbers and matrices have none, on either side. -/
def modulo : Value → Value → Outcome Value
  | .polynomial p, w => do
    let _ ← divisor p w
    return .polynomial (← p.mapCoeffs fun c => c.modulo w.modulus)
  | .number (.complex _), _ => refuse .complexModulo
  | .matrix _, _ => refuse .matrixModulo
  | .number (.rational a), .number y => ((Number.rational a).modulo y).map .number
  | .number (.rational _), .matrix _ => refuse .matrixModulo
  | .number (.rational a), .polynomial q =>
    if !q.isConstant then refuse (.moduloPolynomial (Rational.text a) q.text)
    else if q.isZero then refuse .moduloByZero
    else do
      return .polynomial
        (Poly.constant q.var (← (Coeff.ofRat a).modulo (coeffModulus (q.coefficient 0))))

/-! ## Powers -/

/-- The exponent that a value stands for: the value must be an integer. -/
def exponent (v : Value) : Outcome Int :=
  match v.simplify with
  | .number (.rational q) => if q.den = 1 then .ok q.num else refuse (.badExponent (Rational.text q))
  | w => refuse (.badExponent w.text)

/-- An integer power of a coefficient. -/
def coeffPower (n : Int) : Coeff → Outcome Coeff
  | .scalar z => (z.power n).map .scalar
  | .matrix m => (m.power n).map .matrix

/-- An integer power. -/
def powerInt (n : Int) : Value → Outcome Value
  | .number x => (x.power n).map .number
  | .matrix m => (m.power n).map .matrix
  | .polynomial p =>
    if 0 ≤ n then (p.power n.toNat).map .polynomial
    else if p.isConstant then do
      return .polynomial (Poly.constant p.var (← coeffPower n (p.coefficient 0)))
    else refuse (.negativePolynomialPower p.text n)

/-- The power. A matrix must be square before its exponent is looked at. -/
def power (base e : Value) : Outcome Value :=
  match base with
  | .matrix m =>
    if !m.isSquare then refuse (.notSquare "power" m.shape)
    else do powerInt (← e.exponent) base
  | _ => do powerInt (← e.exponent) base

/-! ## Equality and order -/

/-- Equality of values, whatever the kinds: a constant polynomial equals its constant. -/
def same : Value → Value → Bool
  | .number x, .number y => x.same y
  | .matrix a, .matrix b => a == b
  | .polynomial p, .polynomial q =>
    if p.isConstant && q.isConstant then p.coefficient 0 == q.coefficient 0
    else p.var == q.var && p.terms == q.terms
  | .polynomial p, .number y => p.isConstant && p.coefficient 0 == .scalar y.toGaussian
  | .number x, .polynomial q => q.isConstant && q.coefficient 0 == .scalar x.toGaussian
  | .polynomial p, .matrix b => p.isConstant && p.coefficient 0 == .matrix b
  | .matrix a, .polynomial q => q.isConstant && q.coefficient 0 == .matrix a
  | .number _, .matrix _ => false
  | .matrix _, .number _ => false

end Value

/-! ## Substitution -/

namespace Poly

/-- The value of a term: its coefficient times a power of `v`. -/
def termValue (v : Value) (t : Nat × Coeff) : Outcome Value :=
  if t.1 = 0 then .ok t.2.toValue else do t.2.toValue.mul (← v.powerInt t.1)

/-- The value of the polynomial at `v`, summed from the lowest power up. -/
def eval (p : Poly) (v : Value) : Outcome Value :=
  match p.terms.reverse with
  | [] => .ok (Value.rational 0)
  | t :: rest => do
    let sum ← rest.foldlM (fun sum t => do sum.add (← termValue v t)) (← termValue v t)
    return sum.simplify

end Poly

end Reckoner
