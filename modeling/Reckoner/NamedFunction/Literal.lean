import Reckoner.NamedFunction.Basic
import Reckoner.Poly.Literal
/-!
# Function bodies

A body given as text is read as the first of these that it is: a complex number, a rational number, a matrix, a
polynomial in the parameter.
-/

namespace Reckoner.NamedFunction

/-- The number or matrix that a text denotes, if it denotes one. -/
def constantBody? (t : Text) : Outcome (Option Value) := do
  match Gaussian.parse? t with
  | some z => return some (.number (.ofGaussian z))
  | none =>
    match ← Outcome.unlessRefused (Rational.parse t) with
    | some q => return some (Value.rational q)
    | none => return (← Outcome.unlessRefused (Mat.parse t)).map .matrix

/-- The body that a text denotes. A polynomial stays one even if it is a constant. -/
def parseBody (t : Text) (parameter? : Option Text) : Outcome Value := do
  match ← constantBody? t with
  | some v => return v
  | none => return .polynomial (← Poly.parse t parameter?)

/-- The function with a body given as text. -/
def ofText (name parameter t : Text) : Outcome NamedFunction := do
  let body ← parseBody t (some parameter)
  return ⟨name, parameter, body⟩

end Reckoner.NamedFunction
