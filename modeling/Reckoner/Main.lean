import Reckoner.CommandLine.Run
import Std.Time.DateTime
/-!
# The program

The command line: arguments, settings from the environment, the clock, and the channels that a run writes to.
-/

namespace Reckoner.CommandLine

/-- How the program is called. -/
def usage : String :=
  "usage: computor [-h] [--exact] [--log-level LOG_LEVEL] [expressions ...]\n\n" ++
  "Each expression, or each line of the input when none is given, is evaluated in the same session.\n\n" ++
  "  -h, --help             show this text\n" ++
  "  --exact                show numbers as fractions instead of decimals\n" ++
  "  --log-level LOG_LEVEL  use this log level instead of the one in the settings\n"

/-- The settings that the environment of the process holds. -/
def environment : IO (List (Text × Text)) :=
  ({} : Settings).fields.filterMapM fun (name, _) => do
    return (← IO.getEnv ("COMPUTOR_" ++ Text.str name)).map fun value => (name, value.toList)

/-- The time now, to the second for people and to the microsecond for programs. -/
def timeNow (json : Bool) : IO Text := do
  let now := Std.Time.PlainDateTime.ofWallTime (Std.Time.WallTime.ofTimestamp (← Std.Time.Timestamp.now) ⟨0⟩)
  let two := fun n : Int => Text.padZeros 2 (Text.numeral n.toNat)
  let date := Text.join ['-'] [Text.padZeros 4 (Text.signedNumeral now.year), two now.month.val, two now.day.val]
  let time := Text.join [':'] [two now.hour.val, two now.minute.val, two now.second.val]
  if json then
    let parts := Text.padZeros 6 (Text.numeral (now.nanosecond.val.toNat / 1000))
    return date ++ 'T' :: time ++ '.' :: parts ++ "+00:00".toList
  else return date ++ ' ' :: time

/-- The directory part of a path; empty for a name alone. -/
def directory (path : Text) : Text := ((path.reverse.dropWhile (· != '/')).drop 1).reverse

/-- Adds lines to the log file, if there is one. -/
def writeLog (file : Option Text) (lines : List Text) : IO Unit := do
  match file with
  | none => return
  | some path =>
    if !(directory path).isEmpty then IO.FS.createDirAll (Text.str (directory path))
    IO.FS.withFile (Text.str path) .append fun h => h.putStr (Text.str (Transcript.linesText lines))

/-- Evaluates one line and writes what it has written. -/
def evaluateLine (file : Option Text) (r : Run) (line : Text) : IO (Run × Outcome Bool) := do
  let (r, transcript) := r.line (← timeNow r.json) line
  IO.eprint (Text.str (Transcript.linesText transcript.err))
  IO.print (Text.str (Transcript.linesText transcript.out))
  writeLog file transcript.log
  return (r, transcript.refused)

/-- Evaluates the given lines, or those of the input if there are none; the exit status. -/
def evaluateLines (settings : Settings) (o : Options) (start : Run) : IO UInt32 := do
  let file := settings.logFile.filter (!·.isEmpty)
  writeLog file []
  let input ← IO.getStdin
  let mut r := start
  let mut waiting := o.lines
  let mut status : UInt32 := 0
  repeat
    let line ← if o.lines.isEmpty then (·.toList) <$> input.getLine else pure (waiting.headD [])
    if (if o.lines.isEmpty then line.isEmpty else waiting.isEmpty) then break
    waiting := waiting.tail
    let (after, refused) ← evaluateLine file r line
    r := after
    match refused with
    | .ok true => status := 1
    | .ok false => pure ()
    | .error e =>
      IO.eprintln s!"The run ended with a failure: {repr e}"
      return 1
  return status

end Reckoner.CommandLine

open Reckoner CommandLine in
/-- The program. -/
def main (arguments : List String) : IO UInt32 := do
  match Request.ofTexts (arguments.map String.toList) with
  | .help =>
    IO.print usage
    return 0
  | .misuse =>
    IO.eprint usage
    return 2
  | .run o =>
    match Settings.read (← environment) [] with
    | .ok settings =>
      match Run.start settings o with
      | .ok start => evaluateLines settings o start
      | .error _ =>
        IO.eprintln "The log level is not valid."
        return 1
    | .error _ =>
      IO.eprintln "The settings are not valid."
      return 1
