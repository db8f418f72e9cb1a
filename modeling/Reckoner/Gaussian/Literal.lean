import Reckoner.Gaussian.Basic
import Reckoner.Rational.Literal
import Reckoner.Text.Casing
/-!
# Complex literals

A literal is a rational literal, an imaginary one, or one of each in either order, the second with a sign. An
imaginary literal is a rational literal followed by the unit `i`, with or without a star between them; a sign alone
may stand before the unit. Capitals count as small letters.
-/

namespace Reckoner.Gaussian

/-- The text before the last sign, and the text from that sign on. -/
def cutAtLastSign? : Text → Option (Text × Text)
  | [] => none
  | c :: rest =>
    match cutAtLastSign? rest with
    | some (before, after) => some (c :: before, after)
    | none => if c = '+' ∨ c = '-' then some ([], c :: rest) else none

/-- The text cut at its last sign, where a sign at the very start does not count. -/
def cutParts : Text → Text × Text
  | [] => ([], [])
  | c :: rest =>
    match cutAtLastSign? rest with
    | some (before, after) => (c :: before, after)
    | none => ([], c :: rest)

/-- The coefficient of an imaginary literal; none if the literal is not one. A zero denominator is refused as
such. -/
def readImaginary? (t : Text) : Outcome (Option Rat) :=
  match Text.chop? 'i' t with
  | none => .ok none
  | some coefficient =>
    if coefficient.contains 'i' then .ok none
    else
      let coefficient := (Text.chop? '*' coefficient).getD coefficient
      if coefficient = [] ∨ coefficient = ['+'] then .ok (some 1)
      else if coefficient = ['-'] then .ok (some (-1))
      else readRational? coefficient
where
  /-- A rational literal; none where its form is wrong. -/
  readRational? (t : Text) : Outcome (Option Rat) :=
    match Rational.parse t with
    | .ok q => .ok (some q)
    | .error (.fault .zeroDenominator) => refuse .zeroDenominator
    | .error _ => .ok none

/-- A literal that holds the unit, as its real and imaginary texts. -/
def parts? (t : Text) : Option (Text × Text) :=
  let (first, second) := cutParts t
  match first.contains 'i', second.contains 'i' with
  | false, true => some (first, second)
  | true, false => some (second, first)
  | _, _ => none

/-- A complex literal. -/
def parse (t : Text) : Outcome Gaussian :=
  let cleaned := Text.lower (Text.withoutSpaces t)
  if cleaned.isEmpty then refuse .emptyComplex
  else if !cleaned.contains 'i' then (Rational.parse cleaned).map ofRat
  else
    match parts? cleaned with
    | none => refuse (.badComplex t)
    | some (realText, imaginaryText) => do
      let real ← if realText.isEmpty then pure (some 0) else readImaginary?.readRational? realText
      match real with
      | none => refuse (.badComplex t)
      | some re =>
        match ← readImaginary? imaginaryText with
        | none => refuse (.badComplex t)
        | some im => return ⟨re, im⟩

/-- Whether a text holds the imaginary unit. -/
def mentionsUnit (t : Text) : Bool := (Text.lower t).contains 'i'

/-- The complex number that a text with the imaginary unit denotes, if it denotes one. -/
def parse? (t : Text) : Option Gaussian :=
  if mentionsUnit t then (parse t).toOption else none

/-- A complex or rational literal, as the entries of a matrix are. A text with the unit that is no literal is
refused as a rational number. -/
def parseEntry (t : Text) : Outcome Gaussian :=
  match parse? t with
  | some z => .ok z
  | none => (Rational.parse t).map ofRat

end Reckoner.Gaussian
