import Reckoner.Rational.Basic
/-!
# Rational literals

A literal is a decimal number or the quotient of two. A decimal number has an optional sign and then digits, with
at most one point among them or at either end; one line break may follow it. Spaces are ignored.
-/

namespace Reckoner.Rational

/-- The end of a literal. -/
def atEnd (t : Text) : Bool := t == [] || t == ['\n']

/-- The number that the digits before and after a point denote. -/
def decimalValue (whole places : Text) : Rat :=
  mkRat (Text.numeralValue (whole ++ places)) (Nat.pow 10 places.length)

/-- An unsigned decimal number. -/
def readUnsigned? (t : Text) : Option Rat :=
  let (whole, rest) := Text.spanDigits t
  match rest with
  | '.' :: rest =>
    let (places, rest) := Text.spanDigits rest
    if (whole.isEmpty && places.isEmpty) || !atEnd rest then none else some (decimalValue whole places)
  | rest => if whole.isEmpty || !atEnd rest then none else some (decimalValue whole [])

/-- A decimal number. -/
def readDecimal? (t : Text) : Option Rat :=
  let (negative, rest) := Text.readSign t
  (readUnsigned? rest).map fun q => if negative then -q else q

/-- A decimal number, refused with its own text. -/
def readDecimal (t : Text) : Outcome Rat :=
  match readDecimal? t with
  | some q => .ok q
  | none => refuse (.badRational t)

/-- A rational literal. -/
def parse (t : Text) : Outcome Rat :=
  let cleaned := Text.withoutSpaces t
  if cleaned.isEmpty then refuse .emptyRational
  else
    match Text.cut? ['/'] cleaned with
    | none => readDecimal cleaned
    | some (left, right) =>
      if right.contains '/' || left.isEmpty || right.isEmpty then refuse (.badRational t)
      else do
        let numerator ← readDecimal left
        let denominator ← readDecimal right
        if denominator = 0 then refuse .zeroDenominator else return numerator / denominator

end Reckoner.Rational
