import Reckoner.Double.Basic
/-!
# Doubles as decimals

The shortest decimal that reads back as a double, its text, and rounding to a fixed number of places.
-/

namespace Reckoner.Double

/-! ## Decimal numbers -/

/-- `digits * 10 ^ exponent` as a rational number. -/
def decimal (digits : Nat) (exponent : Int) : Rat :=
  if 0 ≤ exponent then ((digits * Nat.pow 10 exponent.toNat : Nat) : Rat)
  else mkRat digits (Nat.pow 10 (-exponent).toNat)

/-- The double nearest to `± digits * 10 ^ exponent`; numbers far outside the range need no exact quotient. -/
def ofScientific (negative : Bool) (digits : Nat) (exponent : Int) : Double :=
  let size : Int := (Text.numeral digits).length + exponent
  if digits = 0 ∨ size < -400 then .finite negative 0 (-1074)
  else if 400 < size then .infinite negative
  else
    let value := decimal digits exponent
    nearest negative value.num.natAbs value.den

/-- The power of ten above a positive rational: `10 ^ (p - 1) ≤ q < 10 ^ p`. -/
def pointAbove (q : Rat) : Int :=
  if 1 ≤ q then (Text.numeral q.floor.toNat).length
  else
    -- the leading zeros after the point are at most those of the smallest double
    let zeros := (List.range 330).takeWhile fun k => q * (10 : Rat) ^ (k + 1) < 1
    (0 : Int) - zeros.length

/-- A decimal with `k` digits that reads back as `d`, if one of the two neighbours of the value does: the nearer
one if both do, and of two equally near ones the even one. -/
def neighbour? (d : Double) (value : Rat) (point : Int) (k : Nat) : Option (Nat × Int) :=
  let exponent := point - k
  let scaled := value / decimal 1 exponent
  let below := scaled.floor.toNat
  let readsBack := fun c => ofRat (decimal c exponent) == d
  let twice := 2 * (scaled - below)
  let downwards := decide (twice < 1) || (twice == 1 && below % 2 == 0)
  if readsBack below && (!readsBack (below + 1) || downwards) then some (below, exponent)
  else if readsBack (below + 1) then some (below + 1, exponent)
  else none

/-- The shortest decimal that reads back as the finite double `m * 2 ^ e`, as digits and a power of ten. Seventeen
digits are always enough. -/
def shortest (m : Nat) (e : Int) : Nat × Int :=
  let d := Double.finite false m e
  let value := (m : Rat) * powerOfTwo e
  let point := pointAbove value
  ((List.range 17).findSome? fun k => neighbour? d value point (k + 1)).getD (0, 0)

/-- The rational number that a finite double is shown as. -/
def shownValue? : Double → Option Rat
  | .finite _ 0 _ => some 0
  | .finite negative m e =>
    let (digits, exponent) := shortest m e
    some (if negative then -decimal digits exponent else decimal digits exponent)
  | _ => none

/-! ## Text -/

/-- The text of a positive decimal. The point is written out while the leading digit stands from the
fourth place after the point to the sixteenth before it; otherwise the exponent has a sign and at least two
digits. A whole number ends in `whole`. -/
def layout (whole : Text) (digits : Nat) (exponent : Int) : Text :=
  let shown := Text.dropTrailingZeros (Text.numeral digits)
  let point : Int := exponent + (Text.numeral digits).length
  let zeros := fun n : Nat => List.replicate n '0'
  if -4 < point ∧ point ≤ 16 then
    if point ≤ 0 then '0' :: '.' :: zeros (-point).toNat ++ shown
    else
      let places := point.toNat
      if shown.length ≤ places then shown ++ zeros (places - shown.length) ++ whole
      else shown.take places ++ '.' :: shown.drop places
  else
    let tail := if shown.length ≤ 1 then [] else '.' :: shown.drop 1
    let power := point - 1
    let sign := if power < 0 then '-' else '+'
    shown.take 1 ++ tail ++ 'e' :: sign :: Text.padZeros 2 (Text.numeral power.natAbs)

/-- The text of a double, in which a whole number ends in `whole`. What is not a number shows no sign. -/
def textWith (whole : Text) (d : Double) : Text :=
  let signed := fun (negative : Bool) (t : Text) => if negative then '-' :: t else t
  match d with
  | .nan _ => ['n', 'a', 'n']
  | .infinite s => signed s ['i', 'n', 'f']
  | .finite s 0 _ => signed s ('0' :: whole)
  | .finite s m e => let (digits, exponent) := shortest m e; signed s (layout whole digits exponent)

/-- The text of a double; a whole number keeps a zero after its point. -/
def text (d : Double) : Text := textWith ['.', '0'] d

/-! ## Fixed places -/

/-- A finite double that is not negative, rounded to `places` decimals; a half of its exact value goes to the
even neighbour. -/
def roundedTo (places : Nat) : Double → Rat
  | .finite _ m e =>
    let scaled := shifted (m * Nat.pow 10 places) 1 e
    mkRat (roundHalfEven scaled.1 scaled.2) (Nat.pow 10 places)
  | _ => 0

end Reckoner.Double
