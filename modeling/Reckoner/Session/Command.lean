import Reckoner.Session.Basic
/-!
# Commands

What can be asked of a session. Computations and solutions leave it alone; what a command defines or clears stays so for
the commands after it.
-/

namespace Reckoner

/-- What can be asked of a session. -/
inductive Command where
  | assign (line : Text)
  | compute (line : Text)
  | solve (line : Text)
  | evaluate (line : Text)
  | clearVariables
  | clearFunctions
  deriving DecidableEq, Repr

namespace Session

/-- The session without its variables. -/
def clearVariables (s : Session) : Session × Traced Unit :=
  ({ s with environment := { s.environment with values := [] } }, Traced.record .variablesCleared)

/-- The session without its functions. -/
def clearFunctions (s : Session) : Session × Traced Unit :=
  ({ s with environment := { s.environment with functions := [] } }, Traced.record .functionsCleared)

/-- The session after a command. -/
def after (s : Session) : Command → Session
  | .assign line => (s.assign line).1
  | .compute _ | .solve _ => s
  | .evaluate line => (s.evaluate line).1
  | .clearVariables => s.clearVariables.1
  | .clearFunctions => s.clearFunctions.1

end Session

end Reckoner
