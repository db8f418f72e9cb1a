import Reckoner.Mat.Basic
import Reckoner.Gaussian.Literal
/-!
# Matrix literals

A matrix is written as its rows between brackets, `[[a,b];[c,d]]`, or, with no brackets around the rows, `[a,b;c,d]`.
Spaces are ignored. What an entry means is a parameter, so that entries can be numbers or expressions.
-/

namespace Reckoner.Mat

/-- The texts of the rows of a literal. The rows have brackets of their own if the first one starts with one. -/
def rowTexts (literal : Text) : Outcome (List Text) :=
  let cleaned := Text.withoutSpaces literal
  match if cleaned.length < 3 then none else Text.between? '[' ']' cleaned with
  | none => refuse (.badMatrix literal)
  | some inner =>
    let rows := inner.splitOn ';'
    if inner.head? = some '[' then
      rows.zipIdx.mapM fun (row, i) =>
        match Text.between? '[' ']' row with
        | some entries => .ok entries
        | none => refuse (.badMatrixRow i row)
    else .ok rows

/-- An entry as read by `readCell`; a literal of wrong form is refused with its place in the matrix. -/
def readEntry {α : Type} (readCell : Text → Outcome α) (i j : Nat) (entry : Text) : Outcome α :=
  if entry.isEmpty || entry.contains '[' || entry.contains ']' then refuse (.badMatrixEntry i j entry)
  else
    match readCell entry with
    | .error (.fault f) => if f.family = .badFormat then refuse (.badMatrixEntry i j entry) else refuse f
    | outcome => outcome

/-- The rows of a literal, each entry read by `readCell`. -/
def readRows {α : Type} (readCell : Text → Outcome α) (literal : Text) : Outcome (List (List α)) := do
  let rows ← (← rowTexts literal).zipIdx.mapM fun (row, i) =>
    (row.splitOn ',').zipIdx.mapM fun (entry, j) => readEntry readCell i j entry
  let width := (rows.headD []).length
  match rows.zipIdx.find? fun (row, _) => row.length != width with
  | some (row, i) => refuse (.unevenMatrixRow i row.length width)
  | none => return rows

/-- A matrix of numbers. -/
def parse (literal : Text) : Outcome Mat := do ofRows (← readRows Gaussian.parseEntry literal)

end Reckoner.Mat
