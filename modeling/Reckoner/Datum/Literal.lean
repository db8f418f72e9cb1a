import Reckoner.Datum.Comparison
import Reckoner.Datum.Conversion
/-!
# Literals with loosely typed parts

Polynomials, matrices and functions whose body is a text, where the variable, the reader of the entries, or the name may be
data of any kind. What is wrong with the text itself is told first.
-/

namespace Reckoner.Datum

/-! ## Literals -/

/-- The polynomial that a text denotes. Null leaves the variable open; other data that is no text occurs in no term. -/
def polyOfText (t : Text) : Datum → Outcome Poly
  | .nothing => Poly.parse t none
  | .text var => Poly.parse t (some var)
  | _ =>
    let cleaned := Text.withoutSpaces t
    if cleaned.isEmpty then refuse .emptyPolynomial
    else if (Poly.signedTerms cleaned).head?.any (·.2.isEmpty) then refuse (.danglingSign t)
    else .error .kindMismatch

/-- The matrix that a text denotes. Empty data leaves the usual reader of entries; other data reads none. -/
def matOfText (t : Text) (reader : Datum) : Outcome Mat :=
  if reader.isNothing then Mat.parse t
  else do
    let _ ← Mat.readRows (fun _ => (.error .kindMismatch : Outcome Unit)) t
    .error .kindMismatch

/-- The function body that a text denotes, with a polynomial in the given parameter. -/
def bodyOfText (t : Text) (parameter : Datum) : Outcome Value := do
  match ← NamedFunction.constantBody? t with
  | some v => return v
  | none => return .polynomial (← polyOfText t parameter)

/-! ## Functions -/

/-- The function body that data stands for. -/
def toBody (parameter : Datum) : Datum → Outcome Value
  | .text t => bodyOfText t parameter
  | body => body.toValue.map Value.simplify

/-- What is told about a body where a name is no text: a polynomial in another variable comes before the name. -/
def refuseBody (name parameter : Datum) (body : Value) : Outcome NamedFunction := do
  match body with
  | .polynomial p =>
    if p.isConstant || (← parameter.same (.text p.var)) then .error .invalid
    else refuse (.foreignBody name.plain parameter.plain p.var)
  | _ => .error .invalid

/-- The function with the given body. -/
def toFunction (name parameter body : Datum) : Outcome NamedFunction :=
  match name, parameter, body with
  | .text name, .text parameter, .text t => NamedFunction.ofText name parameter t
  | .text name, .text parameter, body => do NamedFunction.make name parameter (← body.toValue)
  | name, parameter, body => do refuseBody name parameter (← toBody parameter body)

end Reckoner.Datum
