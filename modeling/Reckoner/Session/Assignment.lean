import Reckoner.Session.Environment
/-!
# Assignments

A line `name = expression` sets a variable; a line `name(parameter) = expression` defines a function, whose body is the
value of the expression with the parameter as a polynomial.
-/

namespace Reckoner.Environment

/-- The function that a line defines. -/
def readFunction (env : Environment) (name parameter body source : Text) : Traced Definition := do
  Line.checkName name source
  Line.checkName parameter source
  let v ← env.eval body source (unknown parameter)
  let f ← NamedFunction.make name parameter v
  Traced.record (.defined f)
  return .function f

/-- The variable that a line sets. -/
def readVariable (env : Environment) (name expression source : Text) : Traced Definition := do
  Line.checkName name source
  let v ← env.eval expression source []
  Traced.record (.assigned name v)
  return .variable name v

/-- What a line defines. -/
def readDefinition (env : Environment) (line : Text) : Traced Definition := do
  let cleaned := Text.squeeze line
  if !Line.isAssignment cleaned then Traced.lift (refuse (.notAssignment line))
  else
    let (left, right) ← Line.sides cleaned line
    if right.isEmpty then Traced.lift (refuse (.missingValue line))
    else
      match Line.header? left with
      | some (name, parameter) => env.readFunction name parameter right line
      | none => env.readVariable left right line

/-- What a line defines, with a report if it is refused. -/
def assign (env : Environment) (line : Text) : Traced Definition := Traced.reporting line (env.readDefinition line)

end Reckoner.Environment
