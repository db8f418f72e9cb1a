import Reckoner.Fault
/-!
# Reports that are given

A report may be made directly from a family and some arguments. Message and details are then data of any kind; the details
of some families are made from the arguments.
-/

namespace Reckoner

/-- A report whose message and details are data of any kind. -/
structure GivenReport where
  family : Family
  message : Data
  details : Data

namespace GivenReport

/-- The one line that the report is told in. -/
def text (r : GivenReport) : Text := r.message.plain

/-- The report as the fields of a record; empty details are left out. -/
def fields (r : GivenReport) : List (Text × Data) :=
  [("type".toList, .text r.family.name.toList), ("category".toList, .text r.family.category.toList),
   ("message".toList, r.message)]
    ++ (if r.details.isNothing then [] else [("details".toList, r.details)])

/-! ## Shapes -/

/-- A part of a shape. -/
def shapePart (shape : Data) (i : Nat) : Outcome Text :=
  let part? : Outcome (Option Text) :=
    match shape with
    | .list items => .ok (items[i]?.map Data.plain)
    | .text t => .ok (t[i]?.map fun c => [c])
    | .record _ => .error .unknownKey
    | _ => .error .kindMismatch
  part?.bind fun part? =>
    match part? with
    | some part => .ok part
    | none => .error .indexOutOfRange

/-- Rows and columns as messages show them. -/
def shapeText (shape : Data) : Outcome String := do
  let height ← shapePart shape 0
  return Text.str (height ++ 'x' :: (← shapePart shape 1))

/-- The parts of a shape. -/
def shapeParts : Data → Data
  | .text t => .texts (t.map fun c => [c])
  | shape => shape

/-! ## Arguments -/

/-- No details. -/
def noDetails : Data := .record []

/-- The report of a family on two shapes that do not fit together. -/
def ofShapes (operation left right : Data) : Outcome GivenReport := do
  let leftText ← shapeText left
  let message := Report.mismatchMessage (Text.str operation.plain) leftText (← shapeText right)
  return ⟨.dimensionMismatch, .text message.toList,
    .record (Report.mismatchDetails operation (shapeParts left) (shapeParts right))⟩

/-- The report of a family on a shape that is not square. -/
def ofShape (operation shape : Data) : Outcome GivenReport := do
  let message := Report.notSquareMessage (Text.str operation.plain) (← shapeText shape)
  return ⟨.notSquare, .text message.toList, .record (Report.notSquareDetails operation (shapeParts shape))⟩

/-- The report of a family about some names. -/
def ofNames (message names : Data) : GivenReport :=
  ⟨.undefinedName, message, .record [("names".toList, if names.isNothing then .list [] else names)]⟩

/-- The report of a family about a position, if there is one. -/
def ofPosition (message position : Data) : GivenReport :=
  ⟨.badFormat, message, match position with | .null => noDetails | _ => .record [("position".toList, position)]⟩

/-- The report of a family with its usual message. -/
def usual (f : Fault) : GivenReport := ⟨f.family, .text f.report.message, noDetails⟩

/-- The report of a family on some arguments, which must be as many as the family takes. -/
def ofArguments (f : Family) (arguments : List Data) : Outcome GivenReport :=
  match f, arguments with
  | .divideByZero, [] => .ok (usual .divideByZero)
  | .singularMatrix, [] => .ok (usual .singularMatrix)
  | .dimensionMismatch, [operation, left, right] => ofShapes operation left right
  | .notSquare, [operation, shape] => ofShape operation shape
  | .dimensionMismatch, _ => .error .kindMismatch
  | .notSquare, _ => .error .kindMismatch
  | .undefinedName, [message] => .ok (ofNames message .null)
  | .undefinedName, [message, names] => .ok (ofNames message names)
  | .badFormat, [message, position] => .ok (ofPosition message position)
  | f, [message] => .ok ⟨f, message, noDetails⟩
  | .divideByZero, _ => .error .kindMismatch
  | .singularMatrix, _ => .error .kindMismatch
  | f, [message, details] => .ok ⟨f, message, details⟩
  | _, _ => .error .kindMismatch

end GivenReport

end Reckoner
