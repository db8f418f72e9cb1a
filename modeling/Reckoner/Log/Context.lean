import Reckoner.Fault
import Reckoner.Log.Record
/-!
# Records in a context

A logger with a context puts the context into the data of every record. Further fields may be given to a record; they must
not stand in the place of the fields that every record has of its own.
-/

namespace Reckoner.Log

/-- The fields that every record has of its own. -/
def ownFields : List String :=
  ["message", "asctime", "name", "msg", "args", "levelname", "levelno", "pathname", "filename", "module", "exc_info",
   "exc_text", "stack_info", "lineno", "funcName", "created", "msecs", "relativeCreated", "thread", "threadName",
   "processName", "process"]

/-- The fields of a record; other data has none. -/
def fieldsOf : Data → Outcome (List (Text × Data))
  | .record fields => .ok fields
  | _ => .error .kindMismatch

/-- A context: the name of the logger is no part of it. -/
def toContext (d : Data) : Outcome (List (Text × Data)) := do
  let fields ← fieldsOf d
  if fields.any fun f => Text.str f.1 == "name" then .error .kindMismatch else return fields

/-- The data of a record in a context, given with data of its own and with further fields. -/
def dataInContext (context data extra : Data) : Outcome (List (Text × Data)) := do
  let context ← toContext context
  let data ← fieldsOf data
  if (← fieldsOf extra).any fun f => ownFields.contains (Text.str f.1) then .error .unknownKey
  else return inContext context data

end Reckoner.Log
