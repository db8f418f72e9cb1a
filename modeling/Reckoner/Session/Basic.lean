import Reckoner.Session.Display
/-!
# Sessions

A session evaluates lines one after the other, each in the environment that the lines before it left. Its own display says
how answers are shown; the decimals of a root are shared by all sessions. What a line defines stays defined even if it
cannot be shown.
-/

namespace Reckoner

/-- The state of a session. -/
structure Session where
  display : Display
  sharedSettings : Settings
  environment : Environment := {}

namespace Session

/-- A new session under settings of its own. -/
def start (settings sharedSettings : Settings) : Session := ⟨.ofSettings settings, sharedSettings, {}⟩

/-- The session after a line that defines something; a failure leaves it alone. -/
def afterDefinition (s : Session) (d : Traced Definition) : Session :=
  match d.outcome with
  | .ok d => { s with environment := s.environment.define d }
  | .error _ => s

/-- The session after an assignment, and its shown result. -/
def assign (s : Session) (line : Text) : Session × Traced Text :=
  let d := s.environment.assign line
  (s.afterDefinition d, do s.display.showDefinition (← d))

/-- The answer to a line that is no assignment. -/
def answer (s : Session) (line : Text) : Traced Answer := s.environment.compute s.sharedSettings.rootPlaces line

/-- The shown answer to a line that is no assignment. -/
def compute (s : Session) (line : Text) : Traced Text := do s.display.showAnswer (← s.answer line)

/-- The solutions of an equation. -/
def solve (s : Session) (line : Text) : Traced Solutions := s.environment.solve s.sharedSettings.rootPlaces line

/-- The session after any line, and the answer to the line. -/
def evaluate (s : Session) (line : Text) : Session × Traced Answer :=
  if Line.isAssignment line then
    let d := s.environment.assign line
    (s.afterDefinition d, do return (← d).answer)
  else (s, s.answer line)

/-- The session after any line, and the shown result of the line. -/
def line (s : Session) (line : Text) : Session × Traced Text :=
  if Line.isAssignment line then s.assign line else (s, s.compute line)

end Session

end Reckoner
