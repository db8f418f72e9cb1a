import Reckoner.Datum.Arithmetic
/-!
# Sign and size of data

The opposite and the absolute value of plain numbers, values and functions. Other data has none.
-/

namespace Reckoner.Datum

/-- The opposite. -/
def negated : Datum → Outcome Datum
  | .double d => .ok (.double d.neg)
  | .complexDouble z => .ok (.complexDouble z.neg)
  | .decimal d => d.neg.map .decimal
  | .value v => .ok (.value v.neg)
  | .function f => f.neg.map .function
  | d =>
    match d.plainInteger? with
    | some i => .ok (.integer (-i))
    | none => .error .kindMismatch

/-- The data itself, if it has a sign; a decimal number is rounded. -/
def unchanged : Datum → Outcome Datum
  | .double d => .ok (.double d)
  | .complexDouble z => .ok (.complexDouble z)
  | .decimal d => d.plus.map .decimal
  | .value v => .ok (.value v)
  | d =>
    match d.plainInteger? with
    | some i => .ok (.integer i)
    | none => .error .kindMismatch

/-- The absolute value; one of a complex number that is not rational has `places` decimals. -/
def absolute (places : Nat) : Datum → Outcome Datum
  | .double d => .ok (.double d.abs)
  | .complexDouble z => z.abs.map .double
  | .decimal d => d.abs.map .decimal
  | .value (.number (.rational q)) => .ok (.rational (Rational.abs q))
  | .value (.number (.complex z)) => (z.abs places).map .rational
  | d =>
    match d.plainInteger? with
    | some i => .ok (.integer i.natAbs)
    | none => .error .kindMismatch

end Reckoner.Datum
