import Reckoner.Double.Arithmetic
import Reckoner.Double.Text
/-!
# Doubles with a given number of digits

The size of a double written with a number of digits after the point, with an exponent, or in whichever of the two ways is
shorter. A half of the exact value goes to the even neighbour.
-/

namespace Reckoner.Double

/-- How a double is written. -/
inductive Layout where
  /-- All digits before the point. -/
  | positional
  /-- One digit before the point, and an exponent. -/
  | scientific
  /-- With an exponent only where the number is very small or has more digits than are asked for. -/
  | general
  deriving DecidableEq, Repr

/-- The number, given in units of its last place, with `places` digits after the point; a point without digits after it
is left out unless it is to be `kept`. -/
def pointed (kept : Bool) (places units : Nat) : Text :=
  let digits := Text.padZeros (places + 1) (Text.numeral units)
  let whole := digits.take (digits.length - places)
  if places = 0 && !kept then whole else whole ++ '.' :: digits.drop (digits.length - places)

/-- The size with `places` digits after the point. -/
def positionalText (kept : Bool) (places : Nat) (q : Rat) : Text :=
  pointed kept places (roundHalfEven (q.num.natAbs * Nat.pow 10 places) q.den)

/-- The digits of a positive size as one number with `places + 1` digits, and the power of ten of the first digit. -/
def leadingDigits (places : Nat) (q : Rat) : Nat × Int :=
  let power := pointAbove q - 1
  let scaled := q / decimal 1 (power - places)
  let digits := roundHalfEven scaled.num.natAbs scaled.den
  if digits = Nat.pow 10 (places + 1) then (digits / 10, power + 1) else (digits, power)

/-- The size as digits and a power of ten; zero has the power zero. -/
def digitsAndPower (places : Nat) (q : Rat) : Nat × Int := if q = 0 then (0, 0) else leadingDigits places q

/-- An exponent with its sign and at least two digits. -/
def exponentText (power : Int) : Text :=
  'e' :: (if power < 0 then '-' else '+') :: Text.padZeros 2 (Text.numeral power.natAbs)

/-- The size with `places` digits after the point and an exponent. -/
def scientificText (kept : Bool) (places : Nat) (q : Rat) : Text :=
  let (digits, power) := digitsAndPower places q
  pointed kept places digits ++ exponentText power

/-- The text without the zeros at the end of its places, and without a point that nothing follows. -/
def withoutTrailingZeros (t : Text) : Text :=
  if t.contains '.' then
    let t := Text.dropTrailingZeros t
    (Text.chop? '.' t).getD t
  else t

/-- The size with so many digits in all, in the shorter way; zeros at the end are left out unless they are to be
`kept`. -/
def generalText (kept : Bool) (digits : Nat) (q : Rat) : Text :=
  let digits := max 1 digits
  let (leading, power) := digitsAndPower (digits - 1) q
  let shortened := fun t => if kept then t else withoutTrailingZeros t
  if power < -4 || (digits : Int) ≤ power then shortened (pointed kept (digits - 1) leading) ++ exponentText power
  else shortened (positionalText kept (digits - 1 - power).toNat q)

/-- The size of a double with so many digits; what is not finite is a word. -/
def sizeText (layout : Layout) (kept : Bool) (digits : Nat) (d : Double) : Text :=
  match d with
  | .nan _ => ['n', 'a', 'n']
  | .infinite _ => ['i', 'n', 'f']
  | d =>
    match layout with
    | .positional => positionalText kept digits d.abs.value
    | .scientific => scientificText kept digits d.abs.value
    | .general => generalText kept digits d.abs.value

end Reckoner.Double
