import Reckoner.Fault
/-!
# Names in a line

Names are runs of letters of the plain alphabet; the imaginary unit is none. A name with an opening parenthesis right after
it is called as a function.
-/

namespace Reckoner.Line

open CharClass

/-! ## Finding names -/

/-- The runs of letters in a text, each with what follows it. -/
def letterRuns : Text → List (Text × Text)
  | [] => []
  | c :: rest =>
    if isPlainLetter c then
      (c :: rest.takeWhile isPlainLetter, rest.dropWhile isPlainLetter)
        :: letterRuns (rest.dropWhile isPlainLetter)
    else letterRuns rest
termination_by t => t.length
decreasing_by
  all_goals simp only [List.length_cons]
  · have : (rest.dropWhile isPlainLetter).length ≤ rest.length :=
      (List.dropWhile_suffix isPlainLetter).sublist.length_le
    omega
  · omega

/-- Whether a name is the imaginary unit. -/
def isUnit (name : Text) : Bool := name == ['i'] || name == ['I']

/-- The names in a text, each with whether it is called. -/
def names (t : Text) : List (Text × Bool) :=
  ((letterRuns (Text.squeeze t)).filter fun run => !isUnit run.1).map fun run =>
    (run.1, run.2.head? == some '(')

/-- The names that stand for values, in order of first appearance. -/
def variableNames (t : Text) : List Text := Text.distinct (((names t).filter fun n => !n.2).map (·.1))

/-- The names that are called, in order of first appearance. -/
def functionNames (t : Text) : List Text := Text.distinct (((names t).filter fun n => n.2).map (·.1))

/-! ## New names -/

/-- Refuses a name that cannot be given to anything. -/
def checkName (name source : Text) : Outcome Unit :=
  match name with
  | [] => refuse (.emptyName source)
  | c :: _ =>
    if isDigitSign c then refuse (.nameStartsWithDigit source)
    else if !name.all isPlainLetter then refuse (.nameNotLetters source)
    else if isUnit name then refuse (.imaginaryName source)
    else .ok ()

/-- The name and the argument of `name(argument)`; one line break may follow. -/
def header? (t : Text) : Option (Text × Text) :=
  let name := t.takeWhile isPlainLetter
  match t.dropWhile isPlainLetter with
  | '(' :: rest =>
    let argument := rest.takeWhile isPlainLetter
    let last := rest.dropWhile isPlainLetter
    if name.isEmpty || argument.isEmpty || !(last == [')'] || last == [')', '\n']) then none
    else some (name, argument)
  | _ => none

/-! ## Brackets -/

/-- The depth of square brackets at the end of a text; none if a bracket closes none. -/
def bracketDepth? (depth : Nat) : Text → Option Nat
  | [] => some depth
  | c :: rest =>
    if c = '[' then bracketDepth? (depth + 1) rest
    else if c = ']' then if depth = 0 then none else bracketDepth? (depth - 1) rest
    else bracketDepth? depth rest

/-- Refuses a text whose square brackets do not balance. -/
def checkBrackets (t source : Text) : Outcome Unit :=
  if bracketDepth? 0 t = some 0 then .ok () else refuse (.unbalancedBrackets source)

end Reckoner.Line
