import Reckoner.Gaussian.Basic
/-!
# Numbers

A number is rational or complex. What is computed with a complex number is complex, even where the imaginary part
comes out as zero, until it is simplified. Numbers are ordered by value among rational ones and by absolute value as
soon as a complex one takes part.
-/

namespace Reckoner

/-- A rational or a complex number. -/
inductive Number where
  | rational (q : Rat)
  | complex (z : Gaussian)
  deriving DecidableEq, Repr

namespace Number

/-- The number as a complex one. -/
def toGaussian : Number → Gaussian
  | .rational q => Gaussian.ofRat q
  | .complex z => z

/-- A complex number as the simplest number: rational if the imaginary part is zero. -/
def ofGaussian (z : Gaussian) : Number := if z.im = 0 then .rational z.re else .complex z

@[simp] theorem toGaussian_ofGaussian (z : Gaussian) : (ofGaussian z).toGaussian = z := by
  unfold ofGaussian
  split
  next real => exact Gaussian.ext rfl real.symm
  · rfl

/-- The simplest number of the same value. -/
def simplify (x : Number) : Number := ofGaussian x.toGaussian

/-- Whether the number is zero. -/
def isZero (x : Number) : Bool := x.toGaussian == 0

/-- The exact text. -/
def text : Number → Text
  | .rational q => Rational.text q
  | .complex z => z.text

/-- Whether the numerals of the exact text are short enough to be written. -/
def isWritable (x : Number) : Bool := x.toGaussian.isWritable

/-- Equality of values, whatever the kinds. -/
def same (x y : Number) : Bool := x.toGaussian == y.toGaussian

/-! ## Arithmetic -/

/-- The sum. -/
def add : Number → Number → Number
  | .rational a, .rational b => .rational (a + b)
  | x, y => .complex (x.toGaussian + y.toGaussian)

/-- The difference. -/
def sub : Number → Number → Number
  | .rational a, .rational b => .rational (a - b)
  | x, y => .complex (x.toGaussian - y.toGaussian)

/-- The product. -/
def mul : Number → Number → Number
  | .rational a, .rational b => .rational (a * b)
  | x, y => .complex (x.toGaussian * y.toGaussian)

/-- The opposite. -/
def neg : Number → Number
  | .rational q => .rational (-q)
  | .complex z => .complex (-z)

/-- The quotient; a zero divisor is refused. -/
def divide : Number → Number → Outcome Number
  | .rational a, .rational b => (Rational.divide a b).map .rational
  | x, y => (x.toGaussian.divide y.toGaussian).map .complex

/-- The remainder of rational numbers; complex ones have none. -/
def modulo : Number → Number → Outcome Number
  | .rational a, .rational b => (Rational.modulo a b).map .rational
  | _, _ => refuse .complexModulo

/-- An integer power; a negative power of zero is refused. -/
def power : Number → Int → Outcome Number
  | .rational q, n => (Rational.power q n).map .rational
  | .complex z, n => (z.power n).map .complex

/-! ## Order -/

/-- Strict order: by value, or by absolute value if a complex number takes part. -/
def less : Number → Number → Bool
  | .rational a, .rational b => a < b
  | x, y => x.toGaussian.normSquared < y.toGaussian.normSquared

/-- Order with equality, by the same measure. -/
def atMost : Number → Number → Bool
  | .rational a, .rational b => a ≤ b
  | x, y => x.toGaussian.normSquared ≤ y.toGaussian.normSquared

end Number

end Reckoner
