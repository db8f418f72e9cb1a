import Reckoner.Double.Power
import Reckoner.Fault
/-!
# Complex doubles

Pairs of doubles as complex numbers: arithmetic part by part, and powers of doubles, which are complex where the base is
negative and the exponent is not whole.
-/

namespace Reckoner

/-- The complex number `re + im * i` with doubles as its parts. -/
structure ComplexDouble where
  re : Double
  im : Double
  deriving DecidableEq, Repr

namespace ComplexDouble

/-! ## Sums and products -/

/-- A double as a complex number. -/
def ofDouble (d : Double) : ComplexDouble := ⟨d, .zero false⟩

/-- The number one. -/
def one : ComplexDouble := ofDouble (.one false)

/-- Whether both parts are zero. -/
def isZero (z : ComplexDouble) : Bool := z.re.isZero && z.im.isZero

/-- Equality of the parts. -/
def eq (z w : ComplexDouble) : Bool := z.re.eq w.re && z.im.eq w.im

/-- The opposite. -/
def neg (z : ComplexDouble) : ComplexDouble := ⟨z.re.neg, z.im.neg⟩

/-- The number with its imaginary part negated. -/
def conjugate (z : ComplexDouble) : ComplexDouble := ⟨z.re, z.im.neg⟩

/-- The sum. -/
def add (z w : ComplexDouble) : ComplexDouble := ⟨z.re.add w.re, z.im.add w.im⟩

/-- The difference. -/
def sub (z w : ComplexDouble) : ComplexDouble := ⟨z.re.sub w.re, z.im.sub w.im⟩

/-- The product. -/
def mul (z w : ComplexDouble) : ComplexDouble :=
  ⟨(z.re.mul w.re).sub (z.im.mul w.im), (z.re.mul w.im).add (z.im.mul w.re)⟩

/-! ## Quotients -/

/-- The quotient. Both numbers are first divided by the larger part of the divisor. -/
def divide (z w : ComplexDouble) : Outcome ComplexDouble :=
  if w.isZero then .error .zeroDivision
  else if w.re.isNaN || w.im.isNaN then .ok ⟨.nan false, .nan false⟩
  else if w.re.abs.lt w.im.abs then
    let ratio := w.re.divide w.im
    let divisor := (w.re.mul ratio).add w.im
    .ok ⟨((z.re.mul ratio).add z.im).divide divisor, ((z.im.mul ratio).sub z.re).divide divisor⟩
  else
    let ratio := w.im.divide w.re
    let divisor := w.re.add (w.im.mul ratio)
    .ok ⟨(z.re.add (z.im.mul ratio)).divide divisor, (z.im.sub (z.re.mul ratio)).divide divisor⟩

/-! ## Size and powers -/

/-- The absolute value; one that is too large for a double is an overflow. -/
def abs (z : ComplexDouble) : Outcome Double :=
  if z.re.isInfinite || z.im.isInfinite then .ok (.infinite false)
  else if z.re.isNaN || z.im.isNaN then .ok (.nan false)
  else
    let size := z.re.machineLength z.im
    if size.isInfinite then .error .overflow else .ok size

/-- The power with a natural exponent, by squaring. -/
def powerNat (z : ComplexDouble) (n : Nat) : ComplexDouble := steps 7 one z n
where
  /-- The product of `done` and the power of `square`; each step uses up one binary digit of the exponent. -/
  steps : Nat → ComplexDouble → ComplexDouble → Nat → ComplexDouble
    | 0, done, _, _ => done
    | left + 1, done, square, n =>
      if n = 0 then done else steps left (if n % 2 = 1 then done.mul square else done) (square.mul square) (n / 2)

/-- The power with a whole exponent of at most three digits. -/
def powerInt (z : ComplexDouble) (n : Int) : Outcome ComplexDouble :=
  if 0 < n then .ok (z.powerNat n.toNat) else one.divide (z.powerNat n.natAbs)

/-- The power by length and angle. -/
def powerPolar (z w : ComplexDouble) : Outcome ComplexDouble :=
  if w.isZero then .ok one
  else if z.isZero then
    if !w.im.isZero || w.re.isBelowZero then .error .zeroDivision else .ok (ofDouble (.zero false))
  else
    let size := z.re.machineLength z.im
    let angle := Double.angle z.im z.re
    let length := size.machinePower w.re
    let turn := angle.mul w.re
    let (length, turn) :=
      if w.im.isZero then (length, turn)
      else (length.divide (angle.mul w.im).exp, turn.add (w.im.mul size.log))
    if turn.isInfinite then .error .zeroDivision else .ok ⟨length.mul turn.cos, length.mul turn.sin⟩

/-- The power; a result with an infinite part is an overflow. -/
def power (z w : ComplexDouble) : Outcome ComplexDouble := do
  let p ←
    match w.re.toRat? with
    | some n => if w.im.isZero ∧ n.den = 1 ∧ n.num.natAbs ≤ 100 then z.powerInt n.num else z.powerPolar w
    | none => z.powerPolar w
  if p.re.isInfinite || p.im.isInfinite then .error .overflow else return p

end ComplexDouble

namespace Double

/-- The size of a power of a positive number that is not one; what is too large for a double is an overflow. -/
def finitePower (base e : Double) : Outcome Double :=
  let p := base.machinePower e
  if p.isInfinite then .error .overflow else .ok p

/-- The power with an infinite exponent. -/
def powerToInfinity (base : Double) (negative : Bool) : Double :=
  if base.abs.eq (one false) then one false
  else if ((one false).lt base.abs) != negative then .infinite false
  else zero false

/-- The power of an infinite base. -/
def powerOfInfinity (negative : Bool) (e : Double) : Double :=
  let negative := negative && e.isOdd
  if e.isBelowZero then zero negative else .infinite negative

/-- The power, or none where it is not real. A negative power of zero is a division by zero. -/
def power? (base e : Double) : Outcome (Option Double) :=
  if e.isZero then .ok (some (one false))
  else
    match base, e with
    | .nan s, _ => .ok (some (.nan s))
    | base, .nan s => .ok (some (if base.eq (one false) then one false else .nan s))
    | base, .infinite s => .ok (some (powerToInfinity base s))
    | .infinite s, e => .ok (some (powerOfInfinity s e))
    | base, e =>
      if base.isZero then
        if e.isBelowZero then .error .zeroDivision else .ok (some (if e.isOdd then base else zero false))
      else if base.isNegative && !e.isWhole then .ok none
      else
        let signed := fun d : Double => if base.isNegative && e.isOdd then d.neg else d
        if base.abs.eq (one false) then .ok (some (signed (one false)))
        else (finitePower base.abs e).map fun d => some (signed d)

end Double

end Reckoner
