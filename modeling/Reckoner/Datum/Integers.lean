import Reckoner.Datum.Literal
import Reckoner.Datum.Sign
/-!
# Integers given as data

Divisors, multiples, lowest terms and plain matrices, where integers may be given as data of any kind. Zeros of all kinds
are zeros here; apart from them only integers and truth values are taken.
-/

namespace Reckoner.Datum

/-- Whether data equals zero. -/
def equalsZero (d : Datum) : Outcome Bool := d.same (.integer 0)

/-- The greatest common divisor. -/
def gcd (a b : Datum) : Outcome Nat := do return Int.gcd (← a.toInteger) (← b.toInteger)

/-- The least common multiple. -/
def lcm (a b : Datum) : Outcome Nat := do
  if ← a.equalsZero then return 0
  else if ← b.equalsZero then return 0
  else return Int.lcm (← a.toInteger) (← b.toInteger)

/-- Two data whose second is not negative, with the same quotient. -/
def withPositive (a b : Datum) : Outcome (Datum × Datum) := do
  if ← b.less (.integer 0) then
    let a ← a.negated
    return (a, ← b.negated)
  else return (a, b)

/-- A fraction in lowest terms with a positive denominator. -/
def lowestTerms (numerator denominator : Datum) : Outcome (Int × Int) := do
  if ← denominator.equalsZero then refuse .zeroDenominator
  else
    let (a, b) ← withPositive numerator denominator
    let divisor ← gcd a b
    return ((← a.toInteger) / divisor, (← b.toInteger) / divisor)

/-! ## Matrices -/

/-- The number of rows that data stands for; there are no fewer than none. -/
def toHeight (d : Datum) : Outcome Nat := d.toInteger.map Int.toNat

/-- The matrix of zeros; where there is no row, the width is not looked at. -/
def zeros (height width : Datum) : Outcome Mat := do
  let height ← height.toHeight
  if height = 0 then refuse .emptyMatrix
  else toMat (.list (List.replicate height (← operate .times (.list [.integer 0]) width)))

/-- The identity matrix. -/
def identity (size : Datum) : Outcome Mat := do Mat.identity (← size.toHeight)

end Reckoner.Datum
