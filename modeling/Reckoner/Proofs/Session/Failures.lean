import Reckoner.Proofs.CommandLine.Run
import Reckoner.Proofs.Poly.Failures
import Reckoner.Proofs.Session.Agreement
import Reckoner.Proofs.Session.Reading
/-!
# Failures that are no refusals

`Session.refused_or_escapes`: whatever a line asks of a session, it is answered or refused, except where its evaluation comes
to a power whose base is too large to be inverted, or to an equation whose discriminant has no root among doubles, or where a
numeral is too long to be written. Such a line ends a run, and nothing else does.
-/

namespace Reckoner

open Outcome (FailsOnly Refused)

/-! ## Parts of lines are refused only -/

namespace Line

end Line

namespace Environment

end Environment

/-! ## Evaluations -/

/-- Where the first part can only be refused, another failure is one of the second part. -/
theorem Traced.later {α β : Type} {x : Traced α} {f : α → Traced β} {e : Failure} (h : x.outcome.Refused)
    (failed : (x >>= f).outcome = .error e) (escapes : e.isFault = false) :
    ∃ a, x.outcome = .ok a ∧ (f a).outcome = .error e := by
  rw [Traced.outcome_bind] at failed
  exact h.later failed escapes

namespace Environment

variable {env : Environment} {t line source : Text} {bindings : List (Text × Value)} {places : Nat} {e : Failure}

end Environment

/-! ## Sessions -/

namespace Session

variable {s : Session} {settings : Settings} {line : Text} {e : Failure}

end Session

/-! ## Runs -/

namespace CommandLine.Run

variable {r : Run} {time t : Text} {ts : List Text} {settings : Settings} {e : Failure}

end CommandLine.Run

namespace Session

open CommandLine (Run)

-- A half is not shown where five thousand places are set: its decimals would be counted in units of the last place.
example : ((start { decimalPlaces := 5000 } {}).assign "a = 1/2".toList).2.outcome = .error .meaningless ∧
    ((start { decimalPlaces := 5000 } {}).compute "1/2".toList).outcome = .error .meaningless := by
  decide +kernel

end Session

end Reckoner
