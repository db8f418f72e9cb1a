import Reckoner.Line.Names
/-!
# Input lines

What a line asks for. A line with an equals sign assigns a value or defines a function, unless a question mark ends it;
with a question mark it asks for a solution, or for a result if nothing stands after the equals sign.
-/

namespace Reckoner

/-- What a line asks for. -/
inductive Line.Kind where
  | assignment
  | definition
  | computation
  | equation
  deriving DecidableEq, Repr

namespace Line

/-- The name of a kind that records show. -/
def Kind.name : Kind → String
  | .assignment => "VARIABLE_ASSIGNMENT"
  | .definition => "FUNCTION_DEFINITION"
  | .computation => "COMPUTATION"
  | .equation => "SOLVE_REQUEST"

/-- Whether a question mark ends the line. -/
def isRequest (t : Text) : Bool := (Text.squeeze t).getLast? == some '?'

/-- Whether the line has an equals sign and is no request. -/
def isAssignment (t : Text) : Bool := (Text.squeeze t).contains '=' && !isRequest t

/-- The two sides of the one equals sign. -/
def sides (t source : Text) : Outcome (Text × Text) :=
  match t.splitOn '=' with
  | [left, right] => .ok (left, right)
  | _ => refuse (.equalsCount source)

/-- What a line asks for. -/
def classify (t : Text) : Outcome Kind :=
  let cleaned := Text.squeeze t
  match Text.chop? '?' cleaned with
  | some body =>
    if body.contains '=' then do
      let (_, right) ← sides body t
      return if right.isEmpty then .computation else .equation
    else .ok .computation
  | none =>
    if cleaned.contains '=' then do
      let (left, _) ← sides cleaned t
      return if (header? left).isSome then .definition else .assignment
    else .ok .computation

end Line

end Reckoner
