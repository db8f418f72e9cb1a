import Reckoner.Decimal.Basic
import Reckoner.Double.Power
import Reckoner.Fault
import Reckoner.Power
/-!
# Arithmetic on decimal numbers

Results have at most 28 digits, a half rounded to the even neighbour, and powers of ten in a limited range. An operation
without a result is a failure, and so are a division by zero and a result that is too large.
-/

namespace Reckoner.Decimal

/-! ## Rounding to the precision -/

/-- The digits of a result. -/
def precision : Nat := 28

/-- The greatest power of ten of the first digit of a result. -/
def greatestExponent : Int := 999999

/-- The least power of ten of the last digit of a result. -/
def leastExponent : Int := -1000026

/-- The number of digits. -/
def length (digits : Nat) : Nat := (Text.numeral digits).length

/-- The digits of a number with another power of ten: zeros are put on, or digits are rounded off. -/
def rescaled (digits : Nat) (exponent target : Int) : Nat :=
  if target ≤ exponent then digits * Nat.pow 10 (exponent - target).toNat
  else if exponent + length digits < target then 0
  else Double.roundHalfEven digits (Nat.pow 10 (target - exponent).toNat)

/-- The result with the given digits and power of ten. -/
def settle (negative : Bool) (digits : Nat) (exponent : Int) : Outcome Decimal :=
  if digits = 0 then .ok (.finite negative 0 (max leastExponent (min exponent greatestExponent)))
  else
    let target := max exponent (max (exponent + length digits - precision) leastExponent)
    let kept := rescaled digits exponent target
    -- a carry may make one digit too many
    let (kept, target) := if precision < length kept then (kept / 10, target + 1) else (kept, target)
    if greatestExponent < target + length kept - 1 then .error .decimalOverflow
    else .ok (.finite negative kept target)

/-- The result of an operation when an operand is no number: the first such operand, unless one of the two is to be
reported. -/
def undefined? : Decimal → Decimal → Option (Outcome Decimal)
  | .undefined _ true _, _ => some (.error .undefinedDecimal)
  | _, .undefined _ true _ => some (.error .undefinedDecimal)
  | .undefined s false payload, _ => some (.ok (.undefined s false payload))
  | _, .undefined s false payload => some (.ok (.undefined s false payload))
  | _, _ => none

/-! ## Signs -/

/-- Whether the sign is a minus. -/
def isNegative : Decimal → Bool
  | .finite s _ _ => s
  | .infinite s => s
  | .undefined s _ _ => s

/-- Whether the number is zero. -/
def isZero : Decimal → Bool
  | .finite _ 0 _ => true
  | _ => false

/-- The number itself, rounded to the precision; a zero loses its sign. -/
def plus : Decimal → Outcome Decimal
  | .undefined _ true _ => .error .undefinedDecimal
  | .finite s digits exponent => settle (s && digits != 0) digits exponent
  | d => .ok d

/-- The number with the other sign. -/
def flipped : Decimal → Decimal
  | .finite s digits exponent => .finite (!s) digits exponent
  | .infinite s => .infinite !s
  | .undefined s signalling payload => .undefined (!s) signalling payload

/-- The opposite. -/
def neg : Decimal → Outcome Decimal
  | .undefined s false payload => .ok (.undefined s false payload)
  | d => d.flipped.plus

/-- The absolute value. -/
def abs (d : Decimal) : Outcome Decimal := if d.isNegative then d.neg else d.plus

/-! ## Sums and products -/

/-- The sum of two finite numbers that are not zero. A number too small to be seen beside the other counts as one unit
far behind the other's last digit. -/
def addNonzero (s : Bool) (m : Nat) (e : Int) (t : Bool) (n : Nat) (f : Int) : Outcome Decimal :=
  let tiny := fun (m : Nat) (e : Int) (n : Nat) (f : Int) =>
    let least := e + min (-1) ((length m : Int) - precision - 2)
    if f + length n - 1 < least then (1, least) else (n, f)
  let ((m, e), (n, f)) := if e < f then (tiny n f m e, (n, f)) else ((m, e), tiny m e n f)
  let common := min e f
  let signed := fun (s : Bool) (n : Nat) => if s then -(n : Int) else n
  let sum := signed s (rescaled m e common) + signed t (rescaled n f common)
  settle (if sum = 0 then s && t else decide (sum < 0)) sum.natAbs common

/-- The sum. -/
def add (a b : Decimal) : Outcome Decimal :=
  match undefined? a b with
  | some outcome => outcome
  | none =>
    match a, b with
    | .infinite s, .infinite t => if s = t then .ok a else .error .undefinedDecimal
    | .infinite _, _ => .ok a
    | _, .infinite _ => .ok b
    | .finite s m e, .finite t n f =>
      let beside := fun (s : Bool) (m : Nat) (e f : Int) =>
        let target := max (min e f) (e - precision - 1)
        settle s (rescaled m e target) target
      if m = 0 ∧ n = 0 then settle (s && t) 0 (min e f)
      else if m = 0 then beside t n f e
      else if n = 0 then beside s m e f
      else addNonzero s m e t n f
    | a, _ => .ok a

/-- The difference. -/
def sub (a b : Decimal) : Outcome Decimal :=
  match undefined? a b with
  | some outcome => outcome
  | none => a.add b.flipped

/-- The product. -/
def mul (a b : Decimal) : Outcome Decimal :=
  let negative := a.isNegative != b.isNegative
  match undefined? a b with
  | some outcome => outcome
  | none =>
    match a, b with
    | .infinite _, b => if b.isZero then .error .undefinedDecimal else .ok (.infinite negative)
    | a, .infinite _ => if a.isZero then .error .undefinedDecimal else .ok (.infinite negative)
    | .finite _ m e, .finite _ n f => settle negative (m * n) (e + f)
    | a, _ => .ok a

/-! ## Quotients and remainders -/

/-- The number without zeros at its end, as long as its power of ten is below `ideal`. -/
def dropZeros (digits : Nat) (exponent ideal : Int) : Nat × Int :=
  if _h : exponent < ideal ∧ digits % 10 = 0 ∧ 0 < digits then dropZeros (digits / 10) (exponent + 1) ideal
  else (digits, exponent)
termination_by digits
decreasing_by omega

/-- The quotient of numbers that are not zero: one digit more than the precision, and a last digit that tells whether
anything is left. -/
def divideNonzero (negative : Bool) (m : Nat) (e : Int) (n : Nat) (f : Int) : Outcome Decimal :=
  let shift : Int := (length n : Int) - length m + precision + 1
  let scaled := if 0 ≤ shift then (m * Nat.pow 10 shift.toNat, n) else (m, n * Nat.pow 10 (-shift).toNat)
  let quotient := scaled.1 / scaled.2
  let exponent := e - f - shift
  if scaled.1 % scaled.2 ≠ 0 then settle negative (if quotient % 5 = 0 then quotient + 1 else quotient) exponent
  else
    let (digits, exponent) := dropZeros quotient exponent (e - f)
    settle negative digits exponent

/-- The quotient. -/
def divide (a b : Decimal) : Outcome Decimal :=
  let negative := a.isNegative != b.isNegative
  match undefined? a b with
  | some outcome => outcome
  | none =>
    match a, b with
    | .infinite _, .infinite _ => .error .undefinedDecimal
    | .infinite _, _ => .ok (.infinite negative)
    | _, .infinite _ => .ok (.finite negative 0 leastExponent)
    | .finite _ m e, .finite _ n f =>
      if n = 0 then .error (if m = 0 then .undefinedDecimal else .decimalZeroDivision)
      else if m = 0 then settle negative 0 (e - f)
      else divideNonzero negative m e n f
    | a, _ => .ok a

/-- What is left of `a` after taking away whole multiples of `b`; the result has the sign of `a`. The multiple must have
at most as many digits as the precision. -/
def modulo (a b : Decimal) : Outcome Decimal :=
  match undefined? a b with
  | some outcome => outcome
  | none =>
    match a, b with
    | .infinite _, _ => .error .undefinedDecimal
    | a, .infinite _ => if a.isZero then .ok a else a.plus
    | .finite s m e, .finite _ n f =>
      let ideal := min e f
      let apart : Int := (e + length m) - (f + length n)
      if n = 0 then .error .undefinedDecimal
      else if m = 0 then settle s 0 ideal
      else if apart ≤ -2 then settle s (rescaled m e (max ideal (e - precision))) (max ideal (e - precision))
      else if (precision : Int) < apart then .error .undefinedDecimal
      else
        let m := rescaled m e ideal
        let n := rescaled n f ideal
        if Nat.pow 10 precision ≤ m / n then .error .undefinedDecimal else settle s (m % n) ideal
    | a, _ => .ok a

/-- How often `b` goes into `a`, as a whole number; there must be a remainder. -/
def wholeQuotient (a b : Decimal) : Outcome Decimal := do
  let _ ← a.modulo b
  let negative := a.isNegative != b.isNegative
  match a, b with
  | .finite _ m e, .finite _ n f =>
    if m = 0 || (e + length m) - (f + length n) ≤ -2 then return .finite negative 0 0
    else return .finite negative (rescaled m e (min e f) / rescaled n f (min e f)) 0
  | .undefined .., _ => a.plus
  | _, .undefined .. => b.plus
  | _, _ => return .finite negative 0 0

/-! ## Roots -/

/-- The root of `m * 10 ^ e`. The integer root of a large multiple is taken, with a last digit that records whether anything
is left. -/
def rootNonzero (m : Nat) (e : Int) : Outcome Decimal :=
  let shift := 2 * precision + 2 - length m
  let shift := if (e - shift) % 2 = 0 then shift else shift + 1
  let scaled := m * Nat.pow 10 shift
  let root := scaled.sqrt
  settle false (10 * root + if root * root = scaled then 0 else 1) ((e - shift) / 2 - 1)

/-- The square root; a number below zero has none. -/
def sqrt : Decimal → Outcome Decimal
  | .undefined s false payload => .ok (.undefined s false payload)
  | .infinite false => .ok (.infinite false)
  | .finite s 0 e => .ok (.finite s 0 (e / 2))
  | .finite false m e => rootNonzero m e
  | _ => .error .undefinedDecimal

/-! ## Powers -/

/-- The integer that a number is, if it is not huge. -/
def whole? : Decimal → Option Int
  | .finite s m e =>
    let signed := fun n : Nat => if s then -(n : Int) else n
    if 0 ≤ e then if e ≤ 20 then some (signed (m * Nat.pow 10 e.toNat)) else none
    else if e + length m ≤ 0 then if m = 0 then some 0 else none
    else if m % Nat.pow 10 (-e).toNat = 0 then some (signed (m / Nat.pow 10 (-e).toNat)) else none
  | _ => none

/-- Whether a number is an integer. -/
def isWhole (d : Decimal) : Bool :=
  match d with
  | .finite _ _ e => decide (0 ≤ e) || d.whole?.isSome
  | _ => false

/-- The common logarithm of a positive number, to the accuracy of doubles. Near one it is found in one piece. -/
def logarithm (m : Nat) (e : Int) : Double :=
  let place := e + length m
  let place := if place = 0 then 0 else place - 1
  let leading := Double.ofScientific false m (e - place)
  ((leading.log).divide (Double.ofScientific false 10 0).log).add (Double.ofRat (place : Rat))

/-- The power with an exponent of any kind, to the accuracy of doubles. -/
def approximatePower (negative : Bool) (m : Nat) (e : Int) (exponent : Double) : Outcome Decimal :=
  let power := (logarithm m e).mul exponent
  match power.toRat? with
  | none => if power.isNegative then .ok (.finite negative 0 leastExponent) else .error .decimalOverflow
  | some power =>
    let leading := (Double.ofScientific false 10 0).machinePower (Double.ofRat (power - power.floor))
    let digits := (leading.value * 1000000000000000).floor.toNat
    if (greatestExponent : Rat) + 1 < power then .error .decimalOverflow
    else if power < (leastExponent : Rat) then .ok (.finite negative 0 leastExponent)
    else settle negative digits (power.floor - 15)

/-- The power with a small integer as exponent. -/
def powerInt (negative : Bool) (m : Nat) (e : Int) (n : Int) : Outcome Decimal :=
  let power := Nat.pow m n.natAbs
  if 0 ≤ n then settle negative power (e * n) else divideNonzero negative 1 0 power (e * n.natAbs)

/-- The power of a number that is not zero and finite. -/
def powerFinite (s : Bool) (m : Nat) (e : Int) (exponent : Decimal) : Outcome Decimal :=
  let n? := exponent.whole?
  let negative := s && n?.any fun n => n % 2 == 1
  let unit := e + length m = 1 && m = Nat.pow 10 (length m - 1)
  match exponent with
  | .infinite t =>
    if s then .error .undefinedDecimal
    else if unit then .ok (.finite false 1 0)
    else
      let size := logarithm m e
      if size.isBelowZero = t then .ok (.infinite false)
      else .ok (.finite false 0 0)
  | .finite _ _ f =>
    match n? with
    | some n =>
      if n.natAbs * length m ≤ 2000 then powerInt negative m e n
      else if unit then .ok (.finite negative 1 0)
      else approximatePower negative m e exponent.toDouble
    | none =>
      if s && f < 0 then .error .undefinedDecimal
      else if unit then .ok (.finite negative 1 0)
      else approximatePower negative m e exponent.toDouble
  | d => .ok d

/-- The power. -/
def power (a b : Decimal) : Outcome Decimal :=
  match undefined? a b with
  | some outcome => outcome
  | none =>
    let odd := b.whole?.any fun n => n % 2 == 1
    if b.isZero then if a.isZero then .error .undefinedDecimal else .ok (.finite false 1 0)
    else
      match a with
      | .finite s 0 _ =>
        if b.isNegative then .ok (.infinite (s && odd)) else .ok (.finite (s && odd) 0 0)
      | .infinite s =>
        if s && !b.isWhole then .error .undefinedDecimal
        else if b.isNegative then .ok (.finite (s && odd) 0 0)
        else .ok (.infinite (s && odd))
      | .finite s m e => powerFinite s m e b
      | a => .ok a

end Reckoner.Decimal
