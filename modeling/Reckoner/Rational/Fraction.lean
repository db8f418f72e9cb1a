import Reckoner.Rational.Basic
import Reckoner.Token.Basic
/-!
# Fractions

A rational number as it is stored and computed with: a numerator and a denominator without common divisors, the
denominator positive. Every operation multiplies these integers crosswise and brings what comes out to lowest terms.
-/

namespace Reckoner

/-- A numerator above a denominator. -/
structure Fraction where
  numerator : Int
  denominator : Int
  deriving DecidableEq, Repr

namespace Fraction

/-! ## Building -/

/-- Both integers divided by their greatest common divisor. -/
def cancelled (n d : Int) : Fraction := ⟨n / n.gcd d, d / n.gcd d⟩

/-- The quotient of two integers in lowest terms; the sign goes to the numerator. -/
def reduced (n d : Int) : Outcome Fraction :=
  if d = 0 then refuse .zeroDenominator
  else if d < 0 then .ok (cancelled (-n) (-d))
  else .ok (cancelled n d)

/-- An integer. -/
def ofInt (i : Int) : Fraction := ⟨i, 1⟩

/-- The rational number that a fraction stands for. -/
def value (a : Fraction) : Rat := a.numerator / a.denominator

/-- The numerator, followed by the denominator unless that is one. -/
def text (a : Fraction) : Text :=
  if a.denominator = 1 then Text.signedNumeral a.numerator
  else Text.signedNumeral a.numerator ++ '/' :: Text.signedNumeral a.denominator

/-! ## Order -/

/-- A comparison of two fractions by their crosswise products. -/
def compares (relation : Int → Int → Prop) [DecidableRel relation] (a b : Fraction) : Bool :=
  relation (a.numerator * b.denominator) (b.numerator * a.denominator)

/-! ## Arithmetic -/

/-- The sum. -/
def add (a b : Fraction) : Outcome Fraction :=
  reduced (a.numerator * b.denominator + b.numerator * a.denominator) (a.denominator * b.denominator)

/-- The difference. -/
def sub (a b : Fraction) : Outcome Fraction :=
  reduced (a.numerator * b.denominator - b.numerator * a.denominator) (a.denominator * b.denominator)

/-- The product. -/
def mul (a b : Fraction) : Outcome Fraction := reduced (a.numerator * b.numerator) (a.denominator * b.denominator)

/-- The quotient; a zero divisor is refused. -/
def divide (a b : Fraction) : Outcome Fraction :=
  if b.numerator = 0 then refuse .divideByZero
  else reduced (a.numerator * b.denominator) (a.denominator * b.numerator)

/-- How often an integer goes into another, towards zero: the sizes are divided, and the sign is set apart. -/
def timesIn (n d : Int) : Int :=
  let times : Int := (n.natAbs / d.natAbs : Nat)
  if decide (n < 0) ≠ decide (d < 0) then -times else times

/-- What is left of `a` after taking away `b` as often as it goes into `a`. -/
def modulo (a b : Fraction) : Outcome Fraction :=
  if b.numerator = 0 then refuse .moduloByZero
  else do
    let taken ← b.mul (ofInt (timesIn (a.numerator * b.denominator) (a.denominator * b.numerator)))
    a.sub taken

/-- An integer power: of the numerator and of the denominator, which change places if the exponent is negative. -/
def power (a : Fraction) (n : Int) : Outcome Fraction :=
  if n < 0 then
    if a.numerator = 0 then refuse .negativePowerOfZero
    else reduced (Int.pow a.denominator (-n).toNat) (Int.pow a.numerator (-n).toNat)
  else reduced (Int.pow a.numerator n.toNat) (Int.pow a.denominator n.toNat)

/-- The opposite. -/
def neg (a : Fraction) : Outcome Fraction := reduced (-a.numerator) a.denominator

/-- The absolute value. -/
def abs (a : Fraction) : Outcome Fraction := reduced a.numerator.natAbs a.denominator

/-- The exponent that a fraction is: it must be an integer. -/
def exponent (a : Fraction) : Outcome Int :=
  if a.denominator = 1 then .ok a.numerator else refuse (.badExponent a.text)

/-- The result of an operator; fractions have no matrix product. -/
def apply (a : Fraction) (o : Operator) (b : Fraction) : Outcome Fraction :=
  match o with
  | .plus => a.add b
  | .minus => a.sub b
  | .times => a.mul b
  | .divide => a.divide b
  | .modulo => a.modulo b
  | .power => do a.power (← b.exponent)
  | .matrixTimes => .error .kindMismatch

end Fraction

end Reckoner
