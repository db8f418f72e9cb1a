import Reckoner.Postfix.Evaluation
/-!
# Expressions

Expressions as trees, and the infix tokens that stand for a tree. The grammar has one level for each strength of
binding:

    sum     -> sum (+ | -) product | product
    product -> product (* | ** | / | %) unary | unary
    unary   -> - unary | power
    power   -> atom ^ unary | atom
    atom    -> operand | ( sum ) | name ( sum )

A tree keeps the text and the position of each of its tokens, so that its tokens in postfix order are those of the
infix form, parentheses left out.
-/

namespace Reckoner

/-! ## Trees -/

/-- How a token is written, and where. -/
structure Mark where
  value : Text
  position : Nat
  deriving DecidableEq, Repr

/-- The token of a kind with this text at this position. -/
def Mark.token (m : Mark) (k : Token.Kind) : Token := ⟨k, m.value, m.position⟩

@[simp] theorem Mark.token_kind (m : Mark) (k : Token.Kind) : (m.token k).kind = k := rfl

@[simp] theorem Mark.token_mk (value : Text) (position : Nat) (k : Token.Kind) :
    (Mark.mk value position).token k = ⟨k, value, position⟩ := rfl

/-- An expression. Parentheses are kept, but they have no token in postfix order. -/
inductive Expression where
  | operand (o : Operand) (m : Mark)
  | negate (m : Mark) (e : Expression)
  | binary (o : Operator) (m : Mark) (left right : Expression)
  | call (m : Mark) (argument : Expression)
  | group (e : Expression)
  deriving DecidableEq, Repr

namespace Expression

/-- The tokens in postfix order: operands first, then what is done with them. -/
def postorder : Expression → List Token
  | operand o m => [m.token (.operand o)]
  | negate m e => e.postorder ++ [m.token .negate]
  | binary o m left right => left.postorder ++ right.postorder ++ [m.token (.operator o)]
  | call m argument => argument.postorder ++ [m.token .function]
  | group e => e.postorder

/-- What the expression means: its parts from left to right, then what is done with them. The first failure is the
failure of the whole. -/
def evalWith {α : Type} (meaning : Postfix.Interpretation α) : Expression → Outcome α
  | operand o m => meaning.operand o m.value
  | negate _ e => do meaning.negate (← e.evalWith meaning)
  | binary o m left right => do
    let a ← left.evalWith meaning
    let b ← right.evalWith meaning
    meaning.apply o m.value a b
  | call m argument => do meaning.call m.value (← argument.evalWith meaning)
  | group e => e.evalWith meaning

/-- The value of the expression in a scope, in its simplest kind; `source` is the input that messages show. -/
def eval (scope : Scope) (source : Text) (e : Expression) : Outcome Value := do
  return (← e.evalWith (scope.meaning (Postfix.matrixValue scope) source)).simplify

end Expression

/-! ## Grammar -/

/-- The operators of sums. -/
def Operator.additive : Operator → Bool
  | .plus | .minus => true
  | _ => false

/-- The operators of products. -/
def Operator.multiplicative : Operator → Bool
  | .times | .matrixTimes | .divide | .modulo => true
  | _ => false

/-- The levels of the grammar, from the loosest binding to the tightest. -/
inductive Expression.Level where
  | sum
  | product
  | unary
  | power
  | atom
  deriving DecidableEq, Repr

namespace Expression

/-- The infix tokens that stand for a tree at a level. -/
inductive Derives : Level → Expression → List Token → Prop where
  | sum {o m e f ts us} : o.additive = true → Derives .sum e ts → Derives .product f us →
    Derives .sum (binary o m e f) (ts ++ m.token (.operator o) :: us)
  | ofProduct {e ts} : Derives .product e ts → Derives .sum e ts
  | product {o m e f ts us} : o.multiplicative = true → Derives .product e ts → Derives .unary f us →
    Derives .product (binary o m e f) (ts ++ m.token (.operator o) :: us)
  | ofUnary {e ts} : Derives .unary e ts → Derives .product e ts
  | negate {m e ts} : Derives .unary e ts → Derives .unary (negate m e) (m.token .negate :: ts)
  | ofPower {e ts} : Derives .power e ts → Derives .unary e ts
  | power {m e f ts us} : Derives .atom e ts → Derives .unary f us →
    Derives .power (binary .power m e f) (ts ++ m.token (.operator .power) :: us)
  | ofAtom {e ts} : Derives .atom e ts → Derives .power e ts
  | operand {o m} : Derives .atom (operand o m) [m.token (.operand o)]
  | group {l r e ts} : Derives .sum e ts →
    Derives .atom (group e) (Mark.token l .opening :: ts ++ [Mark.token r .closing])
  | call {m l r e ts} : Derives .sum e ts →
    Derives .atom (call m e) (m.token .function :: Mark.token l .opening :: ts ++ [Mark.token r .closing])

namespace Derives

/-- What stands for an atom stands for a sum. -/
theorem sum_of_atom {e : Expression} {ts : List Token} (h : Derives .atom e ts) : Derives .sum e ts :=
  .ofProduct (.ofUnary (.ofPower (.ofAtom h)))

/-- What stands for a unary phrase stands for a sum. -/
theorem sum_of_unary {e : Expression} {ts : List Token} (h : Derives .unary e ts) : Derives .sum e ts :=
  .ofProduct (.ofUnary h)

end Derives

end Expression

end Reckoner
