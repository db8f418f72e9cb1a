import Reckoner.Fault
import Reckoner.Power
/-!
# Rational numbers

The rational numbers of the library are the ones of the language, in lowest terms with a positive denominator. Here
are their text and the operations that can be refused.
-/

namespace Reckoner.Rational

/-- The numerator, followed by the denominator unless that is one. -/
def text (q : Rat) : Text :=
  if q.den = 1 then Text.signedNumeral q.num else Text.signedNumeral q.num ++ '/' :: Text.numeral q.den

/-- Whether the numerals of the text are short enough to be written. -/
def isWritable (q : Rat) : Bool := Text.isWritable q.num.natAbs && Text.isWritable q.den

/-- The text, if it can be written. -/
def written (q : Rat) : Outcome Text := .written (isWritable q) (text q)

/-- Whether the number is an integer. -/
def isInteger (q : Rat) : Bool := q.den == 1

/-- The integer part: what stands after the point is cut off. -/
def truncate (q : Rat) : Int := q.num.tdiv q.den

/-- The absolute value. -/
def abs (q : Rat) : Rat := if q < 0 then -q else q

/-- The quotient; a zero divisor is refused. -/
def divide (a b : Rat) : Outcome Rat :=
  if b = 0 then refuse .divideByZero else .ok (a / b)

/-- What is left of `a` after taking away `b` as often as it fits: it has the sign of `a`. -/
def modulo (a b : Rat) : Outcome Rat :=
  if b = 0 then refuse .moduloByZero else .ok (a - b * truncate (a / b))

/-- An integer power; a negative power of zero is refused. -/
def power (q : Rat) (n : Int) : Outcome Rat :=
  if 0 ≤ n then .ok (Power.onto (· * ·) 1 q n.toNat)
  else if q = 0 then refuse .negativePowerOfZero
  else .ok (Power.onto (· * ·) 1 q⁻¹ (-n).toNat)

/-- The double nearest to the number. -/
def toDouble (q : Rat) : Outcome Double :=
  match Double.ofRat? q with
  | some d => .ok d
  | none => .error .overflow

end Reckoner.Rational
