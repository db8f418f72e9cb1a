import Reckoner.Session.Environment
/-!
# Equations

A line `left = right` is an equation for the one name in it that has no value; without an equals sign the right side is
zero. A side that is a function called with its own parameter is solved for that parameter even if it has a value.
-/

namespace Reckoner.Environment

/-- The names in the two sides that have no value, in order of first appearance; a parameter that a side is solved for
comes first. -/
def unknowns (env : Environment) (left right : Text) : List Text :=
  let names := Text.distinct (Line.variableNames left ++ Line.variableNames right)
  let free := names.filter fun name => (env.value? name).isNone
  [left, right].foldl
    (fun unknowns side =>
      match env.ownCall? side with
      | some f => if unknowns.contains f.parameter then unknowns else f.parameter :: unknowns
      | none => unknowns)
    free

/-- The two sides of an equation; both are required. -/
def equationSides (line : Text) : Outcome (Text × Text) := do
  let cleaned := Text.squeeze line
  let body := (Text.chop? '?' cleaned).getD cleaned
  let (left, right) ← if body.contains '=' then Line.sides body line else pure (body, ['0'])
  if left.isEmpty || right.isEmpty then refuse (.missingSide line) else return (left, right)

/-- The difference of the two sides as a polynomial in the unknown. -/
def difference (env : Environment) (left right line : Text) (unknown? : Option Text) : Traced Poly := do
  let bindings := (unknown?.map unknown).getD []
  let a ← env.eval left line bindings
  let b ← env.eval right line bindings
  let d ← a.sub b
  return d.toPoly (unknown?.getD ['x'])

/-- The solutions of an equation, given `places` decimals for roots that are not rational. -/
def solveEquation (places : Nat) (env : Environment) (line : Text) : Traced Solutions := do
  let (left, right) ← equationSides line
  let unknowns := env.unknowns left right
  if 1 < unknowns.length then Traced.lift (refuse (.severalUnknowns line unknowns))
  else
    let p ← env.difference left right line unknowns.head?
    let solutions ← p.solve places
    Traced.record (.solved p solutions)
    return solutions

/-- The solutions of an equation, with a report if it is refused. -/
def solve (places : Nat) (env : Environment) (line : Text) : Traced Solutions :=
  Traced.reporting line (env.solveEquation places line)

end Reckoner.Environment
