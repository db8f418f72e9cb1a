import Reckoner.CommandLine.Request
import Reckoner.Session.Basic
/-!
# Runs

A run evaluates lines in one session. Results go to the output, messages and log records to the error channel, and the
records alone to the log file. A line that is refused does not end the run; any other failure does.
-/

namespace Reckoner.CommandLine

/-- What is written, line by line, and how it ended. -/
structure Transcript where
  out : List Text := []
  err : List Text := []
  /-- The records alone. -/
  log : List Text := []
  /-- Whether an input was refused, or the failure that ended the run. -/
  refused : Outcome Bool := .ok false

namespace Transcript

/-- A transcript, and what was written after it. -/
def followedBy (t u : Transcript) : Transcript where
  out := t.out ++ u.out
  err := t.err ++ u.err
  log := t.log ++ u.log
  refused := do return (← t.refused) || (← u.refused)

/-- The exit status: one if an input was refused. -/
def status (t : Transcript) : Outcome Nat := t.refused.map fun refused => if refused then 1 else 0

/-- Lines as a text, a line break after each. -/
def linesText (lines : List Text) : Text := lines.flatMap (· ++ ['\n'])

end Transcript

/-- A run between two lines. -/
structure Run where
  session : Session
  /-- Whether log records are written. -/
  logs : Bool
  /-- Whether log records are written for programs. -/
  json : Bool

namespace Run

/-- Whether a log level has records of evaluations written. -/
def showsRecords (level : Text) : Bool := level.map Char.toUpper == "DEBUG".toList

/-- The log level of a run; an empty one counts as none. -/
def logLevel (settings : Settings) (o : Options) : Text := (o.logLevel.filter (!·.isEmpty)).getD settings.logLevel

/-- A log level may be any word but two, which stand for other things. -/
def checkLevel (level : Text) : Outcome Unit :=
  let level := Text.str (level.map Char.toUpper)
  if level == "BASIC_FORMAT" then .error .meaningless
  else if level == "_STYLES" then .error .kindMismatch
  else .ok ()

/-- The start of a run. -/
def start (settings : Settings) (o : Options) : Outcome Run := do
  let level := logLevel settings o
  checkLevel level
  return {
    session := .start (if o.exact then { settings with showDecimals := false } else settings) settings
    logs := showsRecords level
    json := settings.logFormat == "json".toList }

/-- The lines of the records of some events. -/
def recordLines (r : Run) (time : Text) (events : List Event) : List Text :=
  if !r.logs then []
  else events.map fun e => if r.json then e.record.json time else e.record.text time

/-- The message of a fault. -/
def faultLine (f : Fault) : Text := "Error: ".toList ++ f.message.toList

/-- The run after a line, and what the line had written. A line of blanks writes nothing. -/
def line (r : Run) (time t : Text) : Run × Transcript :=
  let t := Text.trim t
  if t.isEmpty then (r, {})
  else
    let (session, result) := r.session.line t
    let records := r.recordLines time result.events
    let r := { r with session }
    match result.outcome with
    | .ok shown => (r, ⟨[shown], records, records, .ok false⟩)
    | .error (.fault f) => (r, ⟨[], records ++ [faultLine f], records, .ok true⟩)
    | .error e => (r, ⟨[], records, records, .error e⟩)

/-- What lines have written, up to a failure that ends the run. -/
def lines (r : Run) (time : Text) : List Text → Transcript
  | [] => {}
  | t :: rest =>
    let (r, transcript) := r.line time t
    match transcript.refused with
    | .ok _ => transcript.followedBy (r.lines time rest)
    | .error _ => transcript

end Run

end Reckoner.CommandLine
