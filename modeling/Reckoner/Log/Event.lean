import Reckoner.Log.Record
import Reckoner.NamedFunction.Basic
import Reckoner.Poly.Roots
/-!
# Events

What the evaluation of input lines records, and how each event reads as a log record.
-/

namespace Reckoner

/-- The solutions as texts. -/
def Solutions.texts : Solutions → List Text
  | .everything => ["All real numbers".toList]
  | .values roots => roots.map Number.text

/-- What happens while a line is evaluated. -/
inductive Event where
  | functionsCleared
  | variablesCleared
  | evaluating (input form : Text)
  | assigned (name : Text) (v : Value)
  | defined (f : NamedFunction)
  | computed (input : Text) (v : Value)
  | solved (p : Poly) (solutions : Solutions)
  | failed (input : Text) (report : Report)

namespace Event

/-- The message of an event. -/
def message : Event → String
  | .functionsCleared => "Functions cleared"
  | .variablesCleared => "Variables cleared"
  | .evaluating .. => "Evaluating"
  | .assigned .. => "Variable assigned"
  | .defined _ => "Function defined"
  | .computed .. => "Computed"
  | .solved .. => "Equation solved"
  | .failed .. => "Evaluation failed"

/-- The activity that an event comes from. -/
def origin : Event → String
  | .functionsCleared => "clear_functions"
  | .variablesCleared => "clear_variables"
  | .evaluating .. => "_evaluate_expression"
  | .assigned .. => "_assign"
  | .defined _ => "_define_function"
  | .computed .. => "_compute"
  | .solved .. => "_solve"
  | .failed .. => "_run"

/-- The data of an event. -/
def data : Event → List (Text × Data)
  | .functionsCleared => []
  | .variablesCleared => []
  | .evaluating input form => [("input".toList, .text input), ("rpn".toList, .text form)]
  | .assigned name v =>
    [("name".toList, .text name), ("kind".toList, .text v.kindName.toList), ("value".toList, .text v.text)]
  | .defined f => [("function".toList, .text f.text)]
  | .computed input v => [("input".toList, .text input), ("value".toList, .text v.text)]
  | .solved p solutions =>
    [("equation".toList, .text (p.text ++ " = 0".toList)), ("degree".toList, .count p.degree),
     ("roots".toList, .texts solutions.texts)]
  | .failed input report => ("input".toList, .text input) :: report.fields

/-- The event as a log record. -/
def record (e : Event) : Log.Record :=
  ⟨"DEBUG".toList, "computor.evaluator".toList, e.message.toList, e.origin.toList, e.data⟩

end Event

end Reckoner
