import Reckoner.Double.Basic
/-!
# Arithmetic on doubles

Each operation gives the double nearest to the exact result. Infinities and the sign of a zero follow the usual rules.
An operand that is not a number is the result, the first one of two; an operation without a result of its own gives what
is not a number, with the sign bit set.
-/

namespace Reckoner.Double

/-! ## Particular doubles -/

/-- The zero with a sign. -/
def zero (negative : Bool) : Double := .finite negative 0 (-1074)

/-- The number one with a sign. -/
def one (negative : Bool) : Double := .finite negative leastNormal (-52)

/-- The number two. -/
def two : Double := .finite false leastNormal (-51)

/-- The result of an operation that has none. -/
def undefined : Double := .nan true

/-- Whether a double is not a number. -/
def isNaN : Double → Bool
  | .nan _ => true
  | _ => false

/-- Whether a double is one of the two infinities. -/
def isInfinite : Double → Bool
  | .infinite _ => true
  | _ => false

/-- Whether a double is one of the two zeros. -/
def isZero : Double → Bool
  | .finite _ 0 _ => true
  | _ => false

/-- Whether a double is less than zero. -/
def isBelowZero (d : Double) : Bool := d.lt (zero false)

/-- The double without its sign. -/
def abs : Double → Double
  | .nan _ => .nan false
  | .infinite _ => .infinite false
  | .finite _ m e => .finite false m e

/-- The double nearest to a rational number; a zero takes the given sign. -/
def rounded (negativeZero : Bool) (q : Rat) : Double := if q = 0 then zero negativeZero else ofRat q

/-- The exact value of a finite double, and zero for others. -/
def value (d : Double) : Rat := d.toRat?.getD 0

/-! ## Sums, products, quotients -/

/-- The sum. -/
def add (a b : Double) : Double :=
  match a, b with
  | .nan s, _ => .nan s
  | _, .nan s => .nan s
  | .infinite s, .infinite t => if s = t then .infinite s else undefined
  | .infinite s, _ => .infinite s
  | _, .infinite t => .infinite t
  | a, b => rounded (a.isNegative && b.isNegative) (a.value + b.value)

/-- The difference. -/
def sub (a b : Double) : Double :=
  match a, b with
  | .nan s, _ => .nan s
  | _, .nan s => .nan s
  | a, b => a.add b.neg

/-- The product. -/
def mul (a b : Double) : Double :=
  let negative := a.isNegative != b.isNegative
  match a, b with
  | .nan s, _ => .nan s
  | _, .nan s => .nan s
  | .infinite _, b => if b.isZero then undefined else .infinite negative
  | a, .infinite _ => if a.isZero then undefined else .infinite negative
  | a, b => rounded negative (a.value * b.value)

/-- The quotient. A quotient by zero is infinite. -/
def divide (a b : Double) : Double :=
  let negative := a.isNegative != b.isNegative
  match a, b with
  | .nan s, _ => .nan s
  | _, .nan s => .nan s
  | .infinite _, .infinite _ => undefined
  | .infinite _, _ => .infinite negative
  | _, .infinite _ => zero negative
  | a, b =>
    if b.isZero then if a.isZero then undefined else .infinite negative
    else rounded negative (a.value / b.value)

/-! ## Remainders -/

/-- The largest whole double that is not above a double. -/
def floor : Double → Double
  | .finite s m e => rounded s ((Double.finite s m e).value.floor : Rat)
  | d => d

/-- What is left of `a` after taking away whole multiples of `b`; the result has the sign of `a`. -/
def remainder (a b : Double) : Double :=
  match a, b with
  | .nan s, _ => .nan s
  | _, .nan s => .nan s
  | .infinite _, _ => undefined
  | a, .infinite _ => a
  | a, b =>
    if b.isZero then undefined
    else
      let times := (a.value / b.value)
      rounded a.isNegative (a.value - b.value * (if times < 0 then -((-times).floor : Rat) else times.floor))

/-- Whether a remainder has to be moved by one divisor to take the divisor's sign. -/
def remainderIsBeyond (r b : Double) : Bool := !r.isZero && b.isBelowZero != r.isBelowZero

/-- What is left of `a` after taking away whole multiples of `b`, which is not zero; the result has the sign of `b`. -/
def modulo (a b : Double) : Double :=
  let r := a.remainder b
  if r.isZero then zero b.isNegative else if remainderIsBeyond r b then r.add b else r

/-- How often `b`, which is not zero, goes into `a`: the whole double next to the quotient of what the remainder leaves
of `a`. -/
def wholeQuotient (a b : Double) : Double :=
  let r := a.remainder b
  let quotient := (a.sub r).divide b
  let quotient := if remainderIsBeyond r b then quotient.sub (one false) else quotient
  if quotient.isZero then zero (a.isNegative != b.isNegative)
  else
    let below := quotient.floor
    if (Double.finite false leastNormal (-53)).lt (quotient.sub below) then below.add (one false) else below

/-! ## Whole doubles -/

/-- Whether a double is a whole number. -/
def isWhole (d : Double) : Bool :=
  match d.toRat? with
  | some q => q.den == 1
  | none => false

/-- Whether a double is an odd whole number. -/
def isOdd (d : Double) : Bool :=
  match d.toRat? with
  | some q => q.den == 1 && q.num % 2 == 1
  | none => false

end Reckoner.Double
