import Reckoner.Rational.Rendering
import Reckoner.Rational.Root
/-!
# Gaussian rationals

Complex numbers with rational parts: arithmetic, powers, size and text.
-/

namespace Reckoner

/-- The complex number `re + im * i`. -/
@[ext]
structure Gaussian where
  re : Rat
  im : Rat
  deriving DecidableEq, Repr

namespace Gaussian

/-! ## Arithmetic -/

/-- A rational number as a complex one. -/
def ofRat (q : Rat) : Gaussian := ⟨q, 0⟩

instance : Zero Gaussian := ⟨⟨0, 0⟩⟩
instance : One Gaussian := ⟨⟨1, 0⟩⟩
instance : Add Gaussian := ⟨fun z w => ⟨z.re + w.re, z.im + w.im⟩⟩
instance : Neg Gaussian := ⟨fun z => ⟨-z.re, -z.im⟩⟩
instance : Sub Gaussian := ⟨fun z w => ⟨z.re - w.re, z.im - w.im⟩⟩
instance : Mul Gaussian := ⟨fun z w => ⟨z.re * w.re - z.im * w.im, z.re * w.im + z.im * w.re⟩⟩

/-- The number with its imaginary part negated. -/
def conjugate (z : Gaussian) : Gaussian := ⟨z.re, -z.im⟩

/-- The square of the absolute value. -/
def normSquared (z : Gaussian) : Rat := z.re * z.re + z.im * z.im

/-- Division by a rational number. -/
def scaleDown (z : Gaussian) (q : Rat) : Gaussian := ⟨z.re / q, z.im / q⟩

instance : Inv Gaussian := ⟨fun z => z.conjugate.scaleDown z.normSquared⟩
instance : Div Gaussian := ⟨fun z w => (z * w.conjugate).scaleDown w.normSquared⟩

/-- The quotient; a zero divisor is refused. -/
def divide (z w : Gaussian) : Outcome Gaussian :=
  if w = 0 then refuse .divideByZero else .ok (z / w)

/-- `accumulated` times the `n`th power of `base`; the base is squared after every digit of the exponent, the last one too. -/
def powerOnto (accumulated base : Gaussian) (n : Nat) : Gaussian :=
  if _h : n = 0 then accumulated
  else powerOnto (if n % 2 = 1 then accumulated * base else accumulated) (base * base) (n / 2)
termination_by n
decreasing_by omega

/-- An integer power; a negative power of zero is refused. -/
def power (z : Gaussian) (n : Int) : Outcome Gaussian :=
  if 0 ≤ n then .ok (powerOnto 1 z n.toNat)
  else if z = 0 then refuse .negativePowerOfZero
  else .ok (powerOnto 1 z⁻¹ (-n).toNat)

/-- The last square is not part of any power. -/
theorem powerOnto_eq (accumulated base : Gaussian) (n : Nat) :
    powerOnto accumulated base n = Power.onto (· * ·) accumulated base n := by
  induction n using Nat.strongRecOn generalizing accumulated base with
  | ind n ih =>
    rw [powerOnto, Power.onto]
    split
    case isTrue => rfl
    case isFalse positive =>
      rw [ih (n / 2) (by omega)]
      by_cases one : n = 1
      · subst one
        simp
      · rw [if_neg one]

/-- The absolute value, rounded to `places` decimals where it is not rational. -/
def abs (places : Nat) (z : Gaussian) : Outcome Rat := Rational.sqrt places z.normSquared

/-- The two parts as doubles. -/
def toDoubles (z : Gaussian) : Outcome (Double × Double) := do
  return (← Rational.toDouble z.re, ← Rational.toDouble z.im)

/-- The absolute value among doubles. -/
def magnitude (z : Gaussian) : Outcome Double := do
  let (re, im) ← z.toDoubles
  return re.hypot im

/-! ## Text -/

/-- The imaginary part with its unit; a coefficient of one is left out. -/
def imaginaryTextWith (render : Rat → Text) (im : Rat) : Text :=
  if im = 1 then ['i'] else if im = -1 then ['-', 'i'] else render im ++ ['i']

/-- The two parts with the sign of the imaginary one between them; a part that is zero is left out. -/
def textWith (render : Rat → Text) (z : Gaussian) : Text :=
  if z.im = 0 then render z.re
  else
    let imaginary := imaginaryTextWith render z.im
    if z.re = 0 then imaginary
    else if imaginary.head? = some '-' then render z.re ++ imaginary
    else render z.re ++ '+' :: imaginary

/-- The exact text. -/
def text (z : Gaussian) : Text := textWith Rational.text z

/-- Whether the numerals of the exact text are short enough to be written. -/
def isWritable (z : Gaussian) : Bool := Rational.isWritable z.re && Rational.isWritable z.im

/-- The text with the parts as `write` writes them. A part that is left out, zero or a unit, can always be written. -/
def writtenWith (write : Rat → Outcome Text) (z : Gaussian) : Outcome Text := do
  let im ← write z.im
  let re ← write z.re
  return textWith (fun q => if q = z.re then re else im) z

/-- The exact text, if it can be written. -/
def written (z : Gaussian) : Outcome Text := z.writtenWith Rational.written

/-- A part as a decimal if it is one with at most `places` decimals, else as a fraction. -/
def partText (places : Nat) (q : Rat) : Outcome Text :=
  if Rational.isInteger q || !Rational.fitsDecimal places q then Rational.written q
  else Rational.decimalText places q

/-- The text in which the parts are decimals where they can be. -/
def decimalText (places : Nat) (z : Gaussian) : Outcome Text := z.writtenWith (partText places)

end Gaussian

end Reckoner
