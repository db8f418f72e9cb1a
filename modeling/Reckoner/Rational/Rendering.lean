import Reckoner.Rational.Basic
/-!
# Decimal rendering

Rounding to a number of decimal places, a half away from zero, and the decimal text of the rounded number. A number is
rounded by way of that text, and so both fail where a numeral in the text is too long.
-/

namespace Reckoner.Rational

/-! ## Which numbers are decimals -/

/-- Whether the number has at most `places` decimals. -/
def fitsDecimal (places : Nat) (q : Rat) : Bool := Nat.pow 10 places % q.den == 0

/-- The number with every factor `p` taken out. -/
def stripFactor (p n : Nat) : Nat :=
  if _h : 1 < p ∧ 0 < n ∧ n % p = 0 then stripFactor p (n / p) else n
termination_by n
decreasing_by exact Nat.div_lt_self _h.2.1 _h.1

/-- Whether the decimal expansion ends: no prime but two and five divides the denominator. -/
def isTerminating (q : Rat) : Bool := stripFactor 5 (stripFactor 2 q.den) == 1

/-! ## Rounding -/

/-- The absolute value in units of the last place, rounded to the nearest one, a half upwards. -/
def units (places : Nat) (q : Rat) : Nat :=
  let scaled := q.num.natAbs * Nat.pow 10 places
  scaled / q.den + (if q.den ≤ 2 * (scaled % q.den) then 1 else 0)

/-- The nearest number with at most `places` decimals, a half away from zero. -/
def roundedTo (places : Nat) (q : Rat) : Rat :=
  let unsigned := mkRat (units places q) (Nat.pow 10 places)
  if q < 0 then -unsigned else unsigned

/-! ## Text -/

/-- The decimal text of the rounded number, without zeros at the end; a number that rounds to zero has no sign. -/
def roundedText (places : Nat) (q : Rat) : Text :=
  let count := units places q
  let scale := Nat.pow 10 places
  let whole := Text.numeral (count / scale)
  let digits := Text.dropTrailingZeros (Text.padZeros places (Text.numeral (count % scale)))
  let unsigned := if digits.isEmpty then whole else whole ++ '.' :: digits
  if q < 0 ∧ count ≠ 0 then '-' :: unsigned else unsigned

/-- Whether both numerals of the decimal text are short enough to be written: the units before the point, and those after
it, which are counted in the last place even where they end in zeros. -/
def isWritableTo (places : Nat) (q : Rat) : Bool :=
  Text.isWritable (units places q / Nat.pow 10 places) && Text.isWritable (units places q % Nat.pow 10 places)

/-- The decimal text, if it can be written. -/
def decimalText (places : Nat) (q : Rat) : Outcome Text := .written (isWritableTo places q) (roundedText places q)

/-- The rounded number, if its decimal text can be written. -/
def round (places : Nat) (q : Rat) : Outcome Rat := .written (isWritableTo places q) (roundedTo places q)

end Reckoner.Rational
