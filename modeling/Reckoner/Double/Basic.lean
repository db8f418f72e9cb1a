import Reckoner.Text.Basic
/-!
# Doubles

Binary floating-point numbers of 64 bits, held as an exact significand and a power of two. Rounding goes to the
nearest double and a tie to the even significand, so a quotient, a square root and the length of a pair are the
doubles nearest to the exact result.
-/

namespace Reckoner

/-- A double. The finite number is `± significand * 2 ^ exponent`, with a significand below `2 ^ 53` that is at
least `2 ^ 52` unless the exponent is the least one, `-1074`. What is not a number has a sign, too. -/
inductive Double where
  | nan (negative : Bool)
  | infinite (negative : Bool)
  | finite (negative : Bool) (significand : Nat) (exponent : Int)
  deriving DecidableEq, Repr

namespace Double

/-! ## Rounding -/

/-- The least significand of a normal double: one bit above the 52 bits that are stored. -/
def leastNormal : Nat := Nat.pow 2 52

/-- The quotient rounded to the nearest natural number, a half to the even neighbour. -/
def roundHalfEven (n d : Nat) : Nat :=
  let quotient := n / d
  let twice := 2 * (n % d)
  if twice < d then quotient else if d < twice then quotient + 1 else quotient + quotient % 2

/-- Numerator and denominator of `n / d * 2 ^ k`. -/
def shifted (n d : Nat) (k : Int) : Nat × Nat :=
  if 0 ≤ k then (n * Nat.pow 2 k.toNat, d) else (n, d * Nat.pow 2 (-k).toNat)

/-- The exponent of the double nearest to `n / d`: the quotient holds 53 binary digits before the point when it
is measured in units of that power of two, unless the units are already the smallest. -/
def exponentFor (n d : Nat) : Int :=
  let k : Int := (n.log2 : Int) - d.log2
  let scaled := shifted n d (-k)
  max (if scaled.2 ≤ scaled.1 then k - 52 else k - 53) (-1074)

/-- The double nearest to `± n / d`, where `d` is positive; infinite when the quotient is too large. -/
def nearest (negative : Bool) (n d : Nat) : Double :=
  if n = 0 then .finite negative 0 (-1074)
  else
    let exponent := exponentFor n d
    let scaled := shifted n d (-exponent)
    let significand := roundHalfEven scaled.1 scaled.2
    let carried := significand = 2 * leastNormal
    let exponent := if carried then exponent + 1 else exponent
    if 971 < exponent then .infinite negative
    else .finite negative (if carried then leastNormal else significand) exponent

/-- The double nearest to a rational number. -/
def ofRat (q : Rat) : Double := nearest (decide (q < 0)) q.num.natAbs q.den

/-- The double nearest to a rational number, unless the number is too large for one. -/
def ofRat? (q : Rat) : Option Double :=
  match ofRat q with
  | .infinite _ => none
  | d => some d

/-- `2 ^ k` as a rational number. -/
def powerOfTwo (k : Int) : Rat :=
  if 0 ≤ k then (2 : Rat) ^ k.toNat else 1 / (2 : Rat) ^ (-k).toNat

/-- The exact value of a finite double. -/
def toRat? : Double → Option Rat
  | .finite negative m e => some ((if negative then -(m : Rat) else m) * powerOfTwo e)
  | _ => none

/-! ## Roots and lengths -/

/-- The double nearest to the square root of `n * 2 ^ k`. The integer root of a large multiple is taken with two
more binary digits than a double has, and a last digit that records whether anything is left. -/
def nearestRoot (n : Nat) (k : Int) : Double :=
  let shift : Nat := 110 + (if (k - 110) % 2 = 0 then 0 else 1)
  let scaled := n * Nat.pow 2 shift
  let root := scaled.sqrt
  let left := if root * root < scaled then 1 else 0
  let parts := shifted (2 * root + left) 1 ((k - shift) / 2 - 1)
  nearest false parts.1 parts.2

/-- The square root of a double that is not negative. -/
def sqrt : Double → Double
  | .finite negative 0 e => .finite negative 0 e
  | .finite _ m e => nearestRoot m e
  | d => d

/-- The square root of the sum of two squares. -/
def hypot : Double → Double → Double
  | .infinite _, _ => .infinite false
  | _, .infinite _ => .infinite false
  | .finite _ m e, .finite _ n f =>
    let k := min e f
    let a := m * Nat.pow 2 (e - k).toNat
    let b := n * Nat.pow 2 (f - k).toNat
    let sum := a * a + b * b
    if sum = 0 then .finite false 0 (-1074) else nearestRoot sum (2 * k)
  | .nan s, _ => .nan s
  | _, .nan s => .nan s

/-! ## Order and sign -/

/-- Strict order; no number lies on either side of what is not a number. -/
def lt (a b : Double) : Bool :=
  match a, b with
  | .nan _, _ => false
  | _, .nan _ => false
  | .infinite s, .infinite t => s && !t
  | .infinite s, _ => s
  | _, .infinite t => !t
  | a, b =>
    match a.toRat?, b.toRat? with
    | some x, some y => decide (x < y)
    | _, _ => false

/-- Equality of numbers: the two zeros are equal, and what is not a number differs from itself. -/
def eq (a b : Double) : Bool :=
  match a, b with
  | .infinite s, .infinite t => s == t
  | a, b =>
    match a.toRat?, b.toRat? with
    | some x, some y => x == y
    | _, _ => false

/-- Whether the sign bit is set. -/
def isNegative : Double → Bool
  | .nan s => s
  | .infinite s => s
  | .finite s _ _ => s

/-- The number with the other sign. -/
def neg : Double → Double
  | .nan s => .nan !s
  | .infinite s => .infinite !s
  | .finite s m e => .finite (!s) m e

/-- Neither infinite nor undefined. -/
def isFinite : Double → Bool
  | .finite .. => true
  | _ => false

/-! ## Bits -/

/-- The highest bit. -/
def signBit : Nat := Nat.pow 2 63

/-- The 64 bits as a number: sign, eleven bits of exponent, 52 bits of fraction. -/
def toBits : Double → Nat
  | .nan s => (if s then signBit else 0) + 2047 * leastNormal + leastNormal / 2
  | .infinite s => (if s then signBit else 0) + 2047 * leastNormal
  | .finite s m e =>
    (if s then signBit else 0) + (if m < leastNormal then m else (e + 1075).toNat * leastNormal + (m - leastNormal))

/-- The double with the given 64 bits. -/
def ofBits (bits : Nat) : Double :=
  let negative := signBit ≤ bits
  let rest := bits % signBit
  let exponent := rest / leastNormal
  let fraction := rest % leastNormal
  if exponent = 2047 then if fraction = 0 then .infinite negative else .nan negative
  else if exponent = 0 then .finite negative fraction (-1074)
  else .finite negative (leastNormal + fraction) (exponent - 1075)

/-- The bits in sixteen hexadecimal digits. -/
def hex (d : Double) : Text := Text.padZeros 16 (Nat.toDigits 16 d.toBits)

end Double

end Reckoner
