import Reckoner.Postfix.Basic
import Reckoner.NamedFunction.Basic
import Reckoner.Mat.Literal
/-!
# Evaluation

A postfix expression is run on a stack. What stands on the stack is a matter of interpretation: in a scope, which gives
names their values and functions, it is values. The entries of a matrix literal are expressions of their own, evaluated in
the same scope; they hold no brackets, so no matrix literal stands inside another.
-/

namespace Reckoner

/-- The result of an operator. -/
def Operator.apply : Operator → Value → Value → Outcome Value
  | .plus => Value.add
  | .minus => Value.sub
  | .times | .matrixTimes => Value.mul
  | .divide => Value.divide
  | .modulo => Value.modulo
  | .power => Value.power

namespace Postfix

/-! ## Running -/

/-- What tokens mean: what operands stand for, and what functions and operators make of what is on the stack. Operators
are given with their text. -/
structure Interpretation (α : Type) where
  operand : Operand → Text → Outcome α
  call : Text → α → Outcome α
  negate : α → Outcome α
  apply : Operator → Text → α → α → Outcome α

variable {α : Type}

/-- The stack after one token, with what came last on top. A parenthesis is no operator. -/
def step (meaning : Interpretation α) (source : Text) (stack : List α) (t : Token) : Outcome (List α) :=
  match t.kind, stack with
  | .operand o, stack => do return (← meaning.operand o t.value) :: stack
  | .function, a :: stack => do return (← meaning.call t.value a) :: stack
  | .negate, a :: stack => do return (← meaning.negate a) :: stack
  | .operator o, right :: left :: stack => do return (← meaning.apply o t.value left right) :: stack
  | .opening, _ :: _ :: _ => .error .unknownKey
  | .closing, _ :: _ :: _ => .error .unknownKey
  | _, _ => refuse (.malformedPostfix source)

/-- What is left when the stack holds one thing. -/
def run (meaning : Interpretation α) (p : Postfix) : Outcome α := do
  match ← p.tokens.foldlM (step meaning p.source) [] with
  | [a] => return a
  | _ => refuse (.malformedPostfix p.source)

end Postfix

/-! ## Scopes -/

/-- What names mean: bindings come before variables, functions have names of their own. -/
structure Scope where
  values : List (Text × Value) := []
  functions : List (Text × NamedFunction) := []
  bindings : List (Text × Value) := []

namespace Scope

/-- The value of a name. -/
def value? (scope : Scope) (name : Text) : Option Value :=
  (scope.bindings.lookup name).or (scope.values.lookup name)

/-- The value of an operand; `readMatrix` reads matrix literals. -/
def operandValue (readMatrix : Text → Outcome Value) (scope : Scope) (source : Text) (o : Operand) (t : Text) :
    Outcome Value :=
  match o with
  | .number => (Rational.parse t).map Value.rational
  | .imaginary => (Gaussian.parse t).map Value.complex
  | .matrix => readMatrix t
  | .identifier =>
    match scope.value? t with
    | some v => .ok v
    | none => refuse (.undefinedVariables source [t])

/-- The value of a function of the scope. -/
def callValue (scope : Scope) (source name : Text) (v : Value) : Outcome Value :=
  match scope.functions.lookup name with
  | some f => f.eval v
  | none => refuse (.undefinedFunctions source [name])

/-- The meaning of tokens in a scope. -/
def meaning (readMatrix : Text → Outcome Value) (scope : Scope) (source : Text) : Postfix.Interpretation Value where
  operand := scope.operandValue readMatrix source
  call := scope.callValue source
  negate v := .ok v.neg
  apply o _ := o.apply

/-- The value of an expression in its simplest kind. -/
def run (readMatrix : Text → Outcome Value) (scope : Scope) (p : Postfix) : Outcome Value := do
  return (← p.run (scope.meaning readMatrix p.source)).simplify

end Scope

namespace Postfix

/-! ## Matrix literals -/

/-- The matrix of some values, which must be numbers. -/
def matrixOf (rows : List (List Value)) : Outcome Value := do
  let cells ← rows.mapM fun row => row.mapM fun v =>
    match v.simplify.toNumber? with
    | some x => pure x.toGaussian
    | none => refuse (.nonScalarEntry v.simplify.text)
  return .matrix (← Mat.ofRows cells)

/-- The value of an entry of a matrix literal. -/
def entryValue (scope : Scope) (entry : Text) : Outcome Value := do
  scope.run (fun literal => refuse (.badMatrix literal)) (← parse entry entry)

/-- The value of a matrix literal. -/
def matrixValue (scope : Scope) (literal : Text) : Outcome Value := do
  matrixOf (← Mat.readRows (entryValue scope) literal)

/-! ## Evaluation -/

/-- The value of an expression in a scope. -/
def eval (scope : Scope) (p : Postfix) : Outcome Value := scope.run (matrixValue scope) p

end Postfix

/-- The value of an expression given as text. -/
def Scope.eval (scope : Scope) (expression : Text) : Outcome Value := do
  (← Postfix.parse expression expression).eval scope

end Reckoner
