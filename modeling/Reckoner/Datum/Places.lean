import Reckoner.Datum.Sign
/-!
# Places of decimals given as data

Decimal texts and rounding where the number of places is data of any kind. A natural number of places is the usual case;
for other numbers the scale, ten to the power of the places, is a plain number of another kind, and the digits are found by
the operators of plain data.
-/

namespace Reckoner.Datum

/-! ## Scales -/

/-- How often a plain real number goes into another, and what is left. -/
def wholeQuotient (a b : Datum) : Outcome (Datum × Datum) :=
  match a.plainInteger?, b.plainInteger?, a.asDecimal?, b.asDecimal? with
  | some i, some j, _, _ =>
    if j = 0 then .error .zeroDivision else .ok (.integer (i.fdiv j), .integer (i.fmod j))
  | _, _, some x, some y => do return (.decimal (← x.wholeQuotient y), .decimal (← x.modulo y))
  | _, _, _, _ =>
    if a.isReal && b.isReal then do
      let x ← a.numberDouble
      let y ← b.numberDouble
      if y.isZero then .error .zeroDivision else return (.double (x.wholeQuotient y), .double (x.modulo y))
    else .error .kindMismatch

/-- Ten to the power of some places. -/
def scaleOf (places : Datum) : Outcome Datum := operate .power (.integer 10) places

/-- The natural number of places that data stands for; `usual` if there is none. -/
def natural? (usual : Nat) : Datum → Option Nat
  | .nothing => some usual
  | .integer i => if 0 ≤ i then some i.toNat else none
  | _ => none

/-! ## Decimal texts -/

/-- Digits filled up on the left with zeros to so many places, without the zeros at the end. -/
def placeDigits (places : Datum) (digits : Text) : Outcome Text :=
  match places.plainInteger? with
  | none => .error .kindMismatch
  | some n =>
    if n < -(Int.pow 2 63) || Int.pow 2 63 ≤ n then .error .overflow
    else .ok (Text.dropTrailingZeros (Text.padZeros n.toNat digits))

/-- The text of a plain number, if it can be written. -/
def numberText (d : Datum) : Outcome Text :=
  .written (d.plainInteger?.all fun i => Text.isWritable i.natAbs) d.plain

/-- The decimal text of a number in units of a scale of any kind. -/
def scaledText (places : Datum) (q : Rat) : Outcome Text := do
  let denominator := Datum.integer q.den
  let scale ← scaleOf places
  let (quotient, rest) ← wholeQuotient (← operate .times (.integer q.num.natAbs) scale) denominator
  let up ← denominator.atMost (← operate .times (.integer 2) rest)
  let quotient ← if up then operate .plus quotient (.integer 1) else pure quotient
  let (whole, fraction) ← wholeQuotient quotient scale
  let whole ← whole.numberText
  let digits ← if places.isNothing then pure [] else placeDigits places (← fraction.numberText)
  let unsigned := if digits.isEmpty then whole else whole ++ '.' :: digits
  let negative ← if q < 0 then (quotient.same (.integer 0)).map (!·) else pure false
  return if negative then '-' :: unsigned else unsigned

/-- The decimal text of a number. -/
def decimalText (usual : Nat) (places : Datum) (q : Rat) : Outcome Text :=
  match places.natural? usual with
  | some n => Rational.decimalText n q
  | none => scaledText places q

/-- Whether a number is a decimal with at most so many places. -/
def fitsDecimal (usual : Nat) (places : Datum) (q : Rat) : Outcome Bool :=
  match places.natural? usual with
  | some n => .ok (Rational.fitsDecimal n q)
  | none => do (← operate .modulo (← scaleOf places) (.integer q.den)).same (.integer 0)

/-- A number as a decimal if it is one with at most so many places, else exactly. -/
def partText (usual : Nat) (places : Datum) (q : Rat) : Outcome Text := do
  if Rational.isInteger q then Rational.written q
  else if ← fitsDecimal usual places q then decimalText usual places q
  else Rational.written q

/-- The text of a complex number whose parts are decimals where they can be. -/
def complexText (usual : Nat) (places : Datum) (z : Gaussian) : Outcome Text :=
  match places.natural? usual with
  | some n => z.decimalText n
  | none => z.writtenWith (partText usual places)

/-! ## Rounding -/

/-- A rational number rounded to some places, by way of its decimal text; a half goes away from zero. -/
def roundRational (places : Datum) (q : Rat) : Outcome Rat :=
  let places := if places.isNothing then .integer 0 else places
  match places.natural? 0 with
  | some n => Rational.round n q
  | none => do Rational.parse (← scaledText places q)

/-- An integer rounded to a power of ten, a half to the even multiple; powers beyond the integer leave nothing of it. -/
def roundInteger (places : Int) (i : Int) : Int :=
  if 0 ≤ places then i
  else if Decimal.length i.natAbs < places.natAbs then 0
  else
    let unit := Nat.pow 10 places.natAbs
    let size := Double.roundHalfEven i.natAbs unit * unit
    if i < 0 then -(size : Int) else size

/-- A double rounded to some places, a half to the even neighbour. Places beyond its digits leave it alone, and places
far before them leave a zero. -/
def roundDouble (places : Int) (d : Double) : Outcome Double :=
  match d with
  | .finite s _ _ =>
    if 323 < places then .ok d
    else if places < -308 then .ok (.zero s)
    else
      let scaled := d.abs.value / Double.decimal 1 (-places)
      let units := Double.roundHalfEven scaled.num.natAbs scaled.den
      let rounded := Double.ofScientific s units (-places)
      if rounded.isInfinite then .error .overflow else .ok rounded
  | d => .ok d

/-- The integer nearest to a double, a half to the even one. -/
def wholeDouble : Double → Outcome Int
  | .nan _ => .error .meaningless
  | .infinite _ => .error .overflow
  | d =>
    let size := Double.roundHalfEven d.abs.value.num.natAbs d.abs.value.den
    .ok (if d.isNegative then -(size : Int) else size)

/-- The integer nearest to a decimal number, a half to the even one. -/
def wholeDecimal : Decimal → Outcome Int
  | .undefined .. => .error .meaningless
  | .infinite _ => .error .overflow
  | .finite s digits exponent =>
    let size := Decimal.rescaled digits exponent 0
    .ok (if s then -(size : Int) else size)

/-- A decimal number with another power of ten; its digits must not be more than the precision. -/
def placedDecimal (places : Int) : Decimal → Outcome Decimal
  | .undefined s false payload => .ok (.undefined s false payload)
  | .finite s digits exponent =>
    let reached := -Decimal.greatestExponent ≤ places && places ≤ -Decimal.leastExponent
    let size := if !reached then none else if (Decimal.precision : Int) < exponent + Decimal.length digits + places && digits != 0 then none
      else some (Decimal.rescaled digits exponent (-places))
    match size with
    | some size => if Decimal.precision < Decimal.length size then .error .undefinedDecimal
        else .ok (.finite s size (-places))
    | none => .error .undefinedDecimal
  | _ => .error .undefinedDecimal

/-- A number rounded to some places, or to an integer if null is given. -/
def rounded (places d : Datum) : Outcome Datum :=
  match d, places with
  | .value (.number (.rational q)), .nothing => (Rational.round 0 q).map fun r => .integer (Rational.truncate r)
  | .value (.number (.rational q)), places => (roundRational places q).map .rational
  | .double d, .nothing => (wholeDouble d).map .integer
  | .decimal d, .nothing => (wholeDecimal d).map .integer
  | d, .nothing =>
    match d.plainInteger? with
    | some i => .ok (.integer i)
    | none => .error .kindMismatch
  | d, places =>
    match places.plainInteger? with
    | none => .error .kindMismatch
    | some n =>
      match d, d.plainInteger? with
      | .double d, _ => (roundDouble n d).map .double
      | .decimal d, _ =>
        if n < -(Int.pow 2 63) || Int.pow 2 63 ≤ n then .error .overflow else (placedDecimal n d).map .decimal
      | _, some i => .ok (.integer (roundInteger n i))
      | _, none => .error .kindMismatch

/-! ## Roots -/

/-- The number of decimals that data is written as: digits of any script. -/
def writtenPlaces? (usual : Nat) : Datum → Option Nat
  | .nothing => some usual
  | d => if d.plain.isEmpty || !d.plain.all CharClass.isDigit then none else some (Text.numeralValue d.plain)

/-- The square root. A number of decimals without meaning is as bad as one that is too large. -/
def root (usual : Nat) (places : Datum) (q : Rat) : Outcome Rat :=
  Rational.sqrt ((writtenPlaces? usual places).getD (Rational.greatestPlaces + 1)) q

end Reckoner.Datum
