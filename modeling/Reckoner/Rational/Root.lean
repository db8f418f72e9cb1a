import Reckoner.Rational.Basic
import Reckoner.Double.Text
/-!
# Square roots

The square root is exact where it is rational; otherwise it is taken among doubles and rounded to a number of
decimal places.
-/

namespace Reckoner.Rational

/-- The root of a number whose numerator and denominator in lowest terms are squares. -/
def exactRoot? (q : Rat) : Option Rat :=
  let numerator := q.num.toNat.sqrt
  let denominator := q.den.sqrt
  if numerator * numerator = q.num ∧ denominator * denominator = q.den then some (mkRat numerator denominator)
  else none

/-- The greatest number of decimals that a double is rounded to. -/
def greatestPlaces : Nat := 2147483647

/-- The root of the nearest double, rounded to `places` decimals; too many decimals have no meaning. -/
def approximateRoot (places : Nat) (q : Rat) : Outcome Rat := do
  let d ← toDouble q
  if places ≤ greatestPlaces then return d.sqrt.roundedTo places else .error .meaningless

/-- The square root: exact if it is rational, else with `places` decimals. -/
def sqrt (places : Nat) (q : Rat) : Outcome Rat :=
  if q < 0 then refuse (.rootOfNegative (text q))
  else
    match exactRoot? q with
    | some root => .ok root
    | none => approximateRoot places q

end Reckoner.Rational
