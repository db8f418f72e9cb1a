import Reckoner.Value.Arithmetic
/-!
# Named functions

A function has a name, one parameter and a body. A body that is a polynomial is one in the parameter; any other body
is a constant. Functions of one parameter can be combined, and the name of the result tells how.
-/

namespace Reckoner

/-- The function `name(parameter) = body`. -/
structure NamedFunction where
  name : Text
  parameter : Text
  body : Value
  deriving DecidableEq

namespace NamedFunction

/-- The function with a body in its simplest kind; a polynomial in a variable of its own is refused. -/
def make (name parameter : Text) (body : Value) : Outcome NamedFunction :=
  match body.simplify with
  | .polynomial p =>
    if p.var = parameter then .ok ⟨name, parameter, .polynomial p⟩
    else refuse (.foreignBody name parameter p.var)
  | v => .ok ⟨name, parameter, v⟩

/-- The value at `v`. -/
def eval (f : NamedFunction) (v : Value) : Outcome Value :=
  match f.body with
  | .polynomial p => p.eval v
  | body => .ok body

/-- The definition as text. -/
def text (f : NamedFunction) : Text :=
  f.name ++ '(' :: f.parameter ++ [')', ' ', '=', ' '] ++ f.body.text

/-- The definition as text, if it can be written. -/
def written (f : NamedFunction) : Outcome Text := .written f.body.isWritable f.text

/-- The definition with the name of its type around it. -/
def describe (f : NamedFunction) : Text := "Function(".toList ++ f.text ++ [')']

/-- Equality of name, parameter and body. -/
def same (f g : NamedFunction) : Bool := f.name == g.name && f.parameter == g.parameter && f.body.same g.body

/-! ## Algebra -/

/-- What is done with two functions of one parameter. -/
def withSameParameter {α : Type} (f g : NamedFunction) (act : Outcome α) : Outcome α :=
  if g.parameter = f.parameter then act
  else refuse (.mixedParameters f.name f.parameter g.name g.parameter)

/-- The name of a combination of two functions. -/
def pairName (f : NamedFunction) (mark : Char) (g : NamedFunction) : Text :=
  '(' :: f.name ++ ' ' :: mark :: ' ' :: g.name ++ [')']

/-- The function whose body combines two bodies. -/
def combine (mark : Char) (operation : Value → Value → Outcome Value) (f g : NamedFunction) :
    Outcome NamedFunction :=
  f.withSameParameter g do make (f.pairName mark g) f.parameter (← operation f.body g.body)

/-- The sum. -/
def add : NamedFunction → NamedFunction → Outcome NamedFunction := combine '+' Value.add

/-- The difference. -/
def sub : NamedFunction → NamedFunction → Outcome NamedFunction := combine '-' Value.sub

/-- The product. -/
def mul : NamedFunction → NamedFunction → Outcome NamedFunction := combine '*' Value.mul

/-- The quotient. -/
def divide : NamedFunction → NamedFunction → Outcome NamedFunction := combine '/' Value.divide

/-- The opposite. -/
def neg (f : NamedFunction) : Outcome NamedFunction := make ('-' :: f.name) f.parameter f.body.neg

/-- The function with `raise` applied to its body; `shown` is the exponent as the name shows it. -/
def power (f : NamedFunction) (shown : Text) (raise : Value → Outcome Value) : Outcome NamedFunction := do
  make (f.name ++ '^' :: shown) f.parameter (← raise f.body)

/-- The composition: first `g`, then `f`. -/
def compose (f g : NamedFunction) : Outcome NamedFunction :=
  f.withSameParameter g do make (f.pairName '∘' g) f.parameter (← f.eval g.body)

/-- The derivative; a constant has the zero of its kind. -/
def derive (f : NamedFunction) : Outcome NamedFunction :=
  make (f.name ++ ['\'']) f.parameter <|
    match f.body with
    | .polynomial p => .polynomial p.derivative
    | .matrix m => .matrix { m with grid := Grid.zero m.height m.width }
    | .number _ => Value.rational 0

end NamedFunction

end Reckoner
