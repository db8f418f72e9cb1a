import Reckoner.Datum.Comparison
/-!
# Data as plain numbers

The integer, the double and the pair of doubles that data stands for. Texts are read; a text that is no numeral, and what is
not a number, have no meaning there.
-/

namespace Reckoner.Datum

/-- The value that was read from a text, if there is one. -/
def orMeaningless {α : Type} : Option α → Outcome α
  | some a => .ok a
  | none => .error .meaningless

/-- The integer part of a double. -/
def truncateDouble : Double → Outcome Int
  | .nan _ => .error .meaningless
  | .infinite _ => .error .overflow
  | d => .ok (Rational.truncate d.value)

/-- The integer part of a decimal number. -/
def truncateDecimal : Decimal → Outcome Int
  | .undefined .. => .error .meaningless
  | .infinite _ => .error .overflow
  | .finite s digits exponent =>
    let size := if 0 ≤ exponent then digits * Nat.pow 10 exponent.toNat
      else if exponent + Decimal.length digits ≤ 0 then 0 else digits / Nat.pow 10 (-exponent).toNat
    .ok (if s then -(size : Int) else size)

/-- The integer part. -/
def truncated : Datum → Outcome Int
  | .value (.number (.rational q)) => .ok (Rational.truncate q)
  | .text t => orMeaningless (Text.integer? t)
  | .double d => truncateDouble d
  | .decimal d => truncateDecimal d
  | d =>
    match d.plainInteger? with
    | some i => .ok i
    | none => .error .kindMismatch

/-- The double nearest to a number that is no text. -/
def numberDouble : Datum → Outcome Double
  | .value (.number (.rational q)) => Rational.toDouble q
  | .double d => .ok d
  | .decimal (.undefined _ true _) => .error .meaningless
  | .decimal d => .ok d.toDouble
  | d =>
    match d.plainInteger? with
    | some i => Rational.toDouble i
    | none => .error .kindMismatch

/-- The nearest double. -/
def nearestDouble : Datum → Outcome Double
  | .text t => orMeaningless (Double.read? t)
  | d => d.numberDouble

/-- The nearest pair of doubles. -/
def nearestComplex : Datum → Outcome ComplexDouble
  | .text t => orMeaningless (ComplexDouble.read? t)
  | .complexDouble z => .ok z
  | .value (.number (.complex z)) => do
    let (re, im) ← z.toDoubles
    return ⟨re, im⟩
  | d => d.numberDouble.map .ofDouble

end Reckoner.Datum
