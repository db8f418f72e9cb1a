import Reckoner.Mat.Basic
/-!
# Coefficients

A coefficient of a polynomial is a number or a matrix. Sums of the two kinds are refused, products are not.
-/

namespace Reckoner

/-- A coefficient: a Gaussian rational or a matrix. -/
inductive Coeff where
  | scalar (z : Gaussian)
  | matrix (m : Mat)
  deriving DecidableEq

/-- What a remainder can be asked for: only rational numbers have remainders. -/
inductive Modulus where
  | rational (q : Rat)
  | complex
  | matrix
  deriving DecidableEq

namespace Coeff

/-- A rational number as a coefficient. -/
def ofRat (q : Rat) : Coeff := .scalar (Gaussian.ofRat q)

/-- The text of a coefficient. -/
def text : Coeff → Text
  | .scalar z => z.text
  | .matrix m => m.text

/-- Whether the numerals of the text are short enough to be written. -/
def isWritable : Coeff → Bool
  | .scalar z => z.isWritable
  | .matrix m => m.isWritable

/-- Whether the coefficient is zero, or a matrix of zeros. -/
def isZero : Coeff → Bool
  | .scalar z => z == 0
  | .matrix m => m.isZero

/-- The rational number that the coefficient is, if it is one. -/
def rational? : Coeff → Option Rat
  | .scalar z => if z.im = 0 then some z.re else none
  | .matrix _ => none

/-! ## Arithmetic -/

/-- The sum. -/
def add : Coeff → Coeff → Outcome Coeff
  | .scalar a, .scalar b => .ok (.scalar (a + b))
  | .matrix a, .matrix b => (a.add b).map .matrix
  | .matrix a, .scalar b => refuse (.addScalarToMatrix a.text b.text)
  | .scalar a, .matrix b => refuse (.addMatrixToScalar a.text b.text)

/-- The product, the factors in their order. -/
def mul : Coeff → Coeff → Outcome Coeff
  | .scalar a, .scalar b => .ok (.scalar (a * b))
  | .matrix a, .matrix b => (a.mul b).map .matrix
  | .matrix a, .scalar b => .ok (.matrix (a.scale b))
  | .scalar a, .matrix b => .ok (.matrix (b.scale a))

/-- The opposite. -/
def neg : Coeff → Coeff
  | .scalar z => .scalar (-z)
  | .matrix m => .matrix m.neg

/-- The coefficient times a rational number. -/
def scale (q : Rat) : Coeff → Coeff
  | .scalar z => .scalar (z * Gaussian.ofRat q)
  | .matrix m => .matrix (m.scale (Gaussian.ofRat q))

/-- The quotient. A zero number is refused as divisor, and so is every matrix. -/
def divide : Coeff → Coeff → Outcome Coeff
  | .scalar a, .scalar b => (a.divide b).map .scalar
  | .matrix a, .scalar b => (a.scaleDown b).map .matrix
  | .scalar a, .matrix b => refuse (.divideScalarByMatrix a.text b.text)
  | .matrix _, .matrix _ => refuse .matrixDivision

/-- The remainder, for a rational coefficient and a rational modulus. -/
def modulo : Coeff → Modulus → Outcome Coeff
  | .matrix _, _ => refuse .matrixModulo
  | .scalar z, modulus =>
    if z.im = 0 then
      match modulus with
      | .rational q => (Rational.modulo z.re q).map ofRat
      | .complex => refuse .complexModulo
      | .matrix => refuse .matrixModulo
    else refuse .complexModulo

end Coeff

end Reckoner
