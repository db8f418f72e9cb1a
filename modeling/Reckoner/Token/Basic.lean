import Reckoner.Text.Basic
/-!
# Tokens

The parts of an expression: operands, operators, parentheses and the names of called functions. A token keeps its
text and its position among the characters of the expression that are not blank.
-/

namespace Reckoner

/-- The operands that stand for a value by themselves. -/
inductive Operand where
  | number
  | imaginary
  | matrix
  | identifier
  deriving DecidableEq, Repr

/-- The operators between two operands. -/
inductive Operator where
  | plus
  | minus
  | times
  | matrixTimes
  | divide
  | modulo
  | power
  deriving DecidableEq, Repr

/-- The kinds of tokens. -/
inductive Token.Kind where
  | operand (o : Operand)
  | operator (o : Operator)
  /-- A minus sign in front of its operand. -/
  | negate
  | opening
  | closing
  /-- A name with its argument in parentheses after it. -/
  | function
  deriving DecidableEq, Repr

/-- A token of an expression. -/
structure Token where
  kind : Token.Kind
  value : Text
  position : Nat
  deriving DecidableEq, Repr

namespace Token

/-! ## Binding -/

/-- How tightly a pending operator binds its operands; other tokens bind none. -/
def Kind.precedence? : Kind → Option Nat
  | .operator .plus | .operator .minus => some 2
  | .operator .times | .operator .matrixTimes | .operator .divide | .operator .modulo => some 3
  | .negate => some 4
  | .operator .power => some 5
  | _ => none

/-- Whether a pending token takes its operands before an operator that follows it: it binds tighter, or equally tight
and the operator groups to the left. Only powers group to the right. -/
def Kind.bindsBefore (pending : Kind) (next : Operator) : Bool :=
  match pending.precedence?, (Kind.operator next).precedence? with
  | some p, some q => q < p || (p == q && next != .power)
  | _, _ => false

/-! ## Sequences -/

/-- The names of the values among tokens, each once. -/
def identifiers (ts : List Token) : List Text :=
  Text.distinct ((ts.filter (·.kind == .operand .identifier)).map (·.value))

/-- The names of the functions among tokens, each once. -/
def functionNames (ts : List Token) : List Text :=
  Text.distinct ((ts.filter (·.kind == .function)).map (·.value))

end Token

end Reckoner
