import Reckoner.Double.Arithmetic
/-!
# Powers and other functions of doubles

Functions whose exact results are not rational are those of the machine. Which powers exist, and their results for
infinities, zeros and signs, is decided before the machine is asked.
-/

namespace Reckoner.Double

/-! ## Functions of the machine -/

/-- A double as the machine has it. -/
def toFloat (d : Double) : Float := Float.ofBits (UInt64.ofNat d.toBits)

/-- A double of the machine. One that is not a number comes from an operation without a result. -/
def ofFloat (x : Float) : Double := if x.isNaN then undefined else ofBits x.toBits.toNat

/-- A function of the machine of one double; an operand that is not a number is the result. -/
def unary (f : Float → Float) (d : Double) : Double := if d.isNaN then d else ofFloat (f d.toFloat)

/-- A function of the machine of two doubles; the first operand that is not a number is the result. -/
def binary (f : Float → Float → Float) (a b : Double) : Double :=
  if a.isNaN then a else if b.isNaN then b else ofFloat (f a.toFloat b.toFloat)

/-- The exponential function. -/
def exp : Double → Double := unary Float.exp

/-- The natural logarithm. -/
def log : Double → Double := unary Float.log

/-- The sine. -/
def sin : Double → Double := unary Float.sin

/-- The cosine. -/
def cos : Double → Double := unary Float.cos

/-- The angle of the point with the given height and width. -/
def angle : Double → Double → Double := binary Float.atan2

/-- The power of the machine: one for the exponent zero and for the base one, whatever the other operand is. -/
def machinePower (a b : Double) : Double :=
  if b.isZero || a.eq (one false) then one false else binary Float.pow a b

/-! ## Lengths -/

/-- The square root of the sum of two squares with one step of correction after the rounded root; the numbers are not
negative, and `narrow` is not above `wide`. -/
def correctedLength (wide narrow : Double) : Double :=
  let root := ((wide.mul wide).add (narrow.mul narrow)).sqrt
  let twice := two.mul
  let error :=
    if (twice narrow).lt root then
      let rest := root.sub wide
      ((twice rest).mul (wide.sub (twice narrow))).add
        (((twice (twice rest)).sub narrow).mul narrow |>.add (rest.mul rest))
    else
      let rest := root.sub narrow
      (wide.mul ((twice rest).sub wide)).add ((rest.sub (twice (wide.sub narrow))).mul rest)
  root.sub (error.divide (twice root))

/-- The double `2 ^ k`. -/
def powerOf (k : Int) : Double := ofRat (powerOfTwo k)

/-- The length of a pair of doubles as the machine has it. Numbers whose squares would leave the range of doubles are
measured in other units; beside a number that is larger by a factor of `2 ^ 54` the other is lost. -/
def machineLength (a b : Double) : Double :=
  if a.isInfinite || b.isInfinite then .infinite false
  else if a.isNaN || b.isNaN then a.add b
  else
    let wide := if a.abs.lt b.abs then b.abs else a.abs
    let narrow := if a.abs.lt b.abs then a.abs else b.abs
    let inUnits := fun k : Int => (correctedLength (wide.mul (powerOf k)) (narrow.mul (powerOf k))).mul (powerOf (-k))
    if !(wide.mul (powerOf (-54))).lt narrow then wide.add narrow
    else if (powerOf 511).lt wide then inUnits (-600)
    else if narrow.lt (powerOf (-459)) then inUnits 600
    else correctedLength wide narrow

end Reckoner.Double
