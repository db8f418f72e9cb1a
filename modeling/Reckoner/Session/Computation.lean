import Reckoner.Session.Assignment
import Reckoner.Session.Equation
/-!
# Computations

A line without an assignment asks for the value of an expression, for the definition of a function that it calls with the
function's own parameter, or for the solutions of an equation.
-/

namespace Reckoner

/-- What a line is answered with. -/
inductive Answer where
  | value (v : Value)
  | function (f : NamedFunction)
  | solutions (s : Solutions)
  deriving DecidableEq

namespace Environment

/-- The expression of a line that asks for a result, without the marks at its end. -/
def requested (line : Text) : Outcome Text :=
  let cleaned := Text.squeeze line
  match Text.chop? '?' cleaned with
  | some body => .ok ((Text.chop? '=' body).getD body)
  | none => if cleaned.contains '=' then refuse (.resultNotRequested line) else .ok cleaned

/-- The function that a text shows: one called with its own parameter, which has no value. -/
def shownFunction? (env : Environment) (t : Text) : Option NamedFunction :=
  (env.ownCall? t).filter fun f => (env.value? f.parameter).isNone

/-- The answer to a line that is no assignment. -/
def answer (places : Nat) (env : Environment) (line : Text) : Traced Answer := do
  match ← Line.classify line with
  | .equation => return .solutions (← env.solveEquation places line)
  | _ =>
    let expression ← requested line
    if expression.isEmpty then Traced.lift (refuse (.emptyComputation line))
    else
      match env.shownFunction? expression with
      | some f => return .function f
      | none =>
        let v ← env.eval expression line []
        Traced.record (.computed line v)
        return .value v

/-- The answer to a line, with a report if it is refused. -/
def compute (places : Nat) (env : Environment) (line : Text) : Traced Answer :=
  Traced.reporting line (env.answer places line)

end Environment

/-- The answer that shows a definition's value. -/
def Definition.answer : Definition → Answer
  | .variable _ v => .value v
  | .function f => .function f

end Reckoner
