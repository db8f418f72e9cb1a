import Reckoner.Number
import Reckoner.Poly.Basic
/-!
# Values

A value is a number, a matrix or a polynomial. A value is simplified when it is not a complex number that is real,
nor a constant polynomial.
-/

namespace Reckoner

/-- A value of the calculator. -/
inductive Value where
  | number (x : Number)
  | matrix (m : Mat)
  | polynomial (p : Poly)
  deriving DecidableEq

/-- A coefficient as a value, in its simplest kind. -/
def Coeff.toValue : Coeff → Value
  | .scalar z => .number (Number.ofGaussian z)
  | .matrix m => .matrix m

namespace Value

/-- A rational number as a value. -/
def rational (q : Rat) : Value := .number (.rational q)

/-- A complex number as a value, even one that is real. -/
def complex (z : Gaussian) : Value := .number (.complex z)

/-- The value as a polynomial, a constant one in `var` unless it is one already. -/
def toPoly (var : Text) : Value → Poly
  | .number x => Poly.constant var (.scalar x.toGaussian)
  | .matrix m => Poly.constant var (.matrix m)
  | .polynomial p => p

/-- The value as a coefficient; a polynomial is none. -/
def toCoeff? : Value → Option Coeff
  | .number x => some (.scalar x.toGaussian)
  | .matrix m => some (.matrix m)
  | .polynomial _ => none

/-- The number that a value of one of the first two kinds is. -/
def toNumber? : Value → Option Number
  | .number x => some x
  | _ => none

/-- The same value in its simplest kind. -/
def simplify : Value → Value
  | .number x => .number x.simplify
  | .matrix m => .matrix m
  | .polynomial p => if p.isConstant then (p.coefficient 0).toValue else .polynomial p

/-- Whether the value is the zero of its kind; a matrix is if all its cells are. -/
def isZero : Value → Bool
  | .number x => x.isZero
  | .matrix m => m.isZero
  | .polynomial p => p.isZero

/-- The exact text. -/
def text : Value → Text
  | .number x => x.text
  | .matrix m => m.text
  | .polynomial p => p.text

/-- Whether the numerals of the exact text are short enough to be written. -/
def isWritable : Value → Bool
  | .number x => x.isWritable
  | .matrix m => m.isWritable
  | .polynomial p => p.isWritable

/-- The exact text, if it can be written. -/
def written (v : Value) : Outcome Text := .written v.isWritable v.text

/-- The name of the kind that records show. -/
def kindName : Value → String
  | .number (.rational _) => "RATIONAL"
  | .number (.complex _) => "COMPLEX"
  | .matrix _ => "MATRIX"
  | .polynomial _ => "POLYNOMIAL"

/-- The name of the type that messages show. -/
def typeName : Value → String
  | .number (.rational _) => "Rational"
  | .number (.complex _) => "Complex"
  | .matrix _ => "Matrix"
  | .polynomial _ => "Polynomial"

/-- The text with the name of the type around it. -/
def describe (v : Value) : Text :=
  let parts : Text :=
    match v with
    | .number (.rational q) => Text.signedNumeral q.num ++ ',' :: ' ' :: Text.numeral q.den
    | .number (.complex z) => Rational.text z.re ++ ',' :: ' ' :: Rational.text z.im
    | v => v.text
  v.typeName.toList ++ '(' :: parts ++ [')']

/-- A complex value for a rational one that is to meet a complex one; any other value stays. -/
def promote : Value → Value → Value
  | .number (.rational q), .number (.complex _) => complex (Gaussian.ofRat q)
  | v, _ => v

end Value

end Reckoner
