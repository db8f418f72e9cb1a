import Reckoner.Datum.Part
/-!
# Evaluation among data

Expressions whose names stand for data of any kind. Operators act on data as they do elsewhere; the result must be a value,
and so must every entry of a matrix literal.
-/

namespace Reckoner

/-- What names mean where they stand for data: bindings come before variables, functions have names of their own. -/
structure Datum.Scope where
  values : List (Text × Datum) := []
  functions : List (Text × Datum) := []
  bindings : List (Text × Datum) := []

namespace Datum.Scope

/-- The data of a name. -/
def datum? (scope : Datum.Scope) (name : Text) : Option Datum :=
  (scope.bindings.lookup name).or (scope.values.lookup name)

/-- What an operand stands for; `readMatrix` reads matrix literals. -/
def operandOf (readMatrix : Text → Outcome Value) (scope : Datum.Scope) (source : Text) (o : Operand) (t : Text) :
    Outcome Datum :=
  match o with
  | .number => (Rational.parse t).map Datum.rational
  | .imaginary => (Gaussian.parse t).map fun z => .value (.complex z)
  | .matrix => (readMatrix t).map .value
  | .identifier =>
    match scope.datum? t with
    | some d => .ok d
    | none => refuse (.undefinedVariables source [t])

/-- The value of a function of the scope, or of a polynomial that stands for one. -/
def callOf (scope : Datum.Scope) (source name : Text) (d : Datum) : Outcome Datum :=
  match scope.functions.lookup name with
  | none => refuse (.undefinedFunctions source [name])
  | some .nothing => refuse (.undefinedFunctions source [name])
  | some (.function f) => (Datum.call f d).map .value
  | some (.value (.polynomial p)) => (Datum.evalPoly p d).map .value
  | some _ => .error .missingPart

/-- The meaning of tokens in a scope of data. -/
def meaning (readMatrix : Text → Outcome Value) (scope : Datum.Scope) (source : Text) :
    Postfix.Interpretation Datum where
  operand := scope.operandOf readMatrix source
  call := scope.callOf source
  negate := Datum.negated
  apply := Datum.operateToken

/-- The value of an expression in its simplest kind; a result that is no value has none. -/
def run (readMatrix : Text → Outcome Value) (scope : Datum.Scope) (p : Postfix) : Outcome Value := do
  match ← p.run (scope.meaning readMatrix p.source) with
  | .value v => return v.simplify
  | _ => .error .missingPart

/-- The value of an entry of a matrix literal. -/
def entryValue (scope : Datum.Scope) (entry : Text) : Outcome Value := do
  scope.run (fun literal => refuse (.badMatrix literal)) (← Postfix.parse entry entry)

/-- The value of a matrix literal. -/
def matrixValue (scope : Datum.Scope) (literal : Text) : Outcome Value := do
  Postfix.matrixOf (← Mat.readRows scope.entryValue literal)

/-- The value of an expression. -/
def eval (scope : Datum.Scope) (p : Postfix) : Outcome Value := scope.run scope.matrixValue p

end Datum.Scope

end Reckoner
