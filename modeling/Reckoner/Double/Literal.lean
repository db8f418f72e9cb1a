import Reckoner.Double.Complex
import Reckoner.Text.Casing
import Reckoner.Text.Numeral
/-!
# Doubles and complex doubles as people type them

A double is a decimal number with an optional exponent, or a word for what is not finite. A complex number is a double,
an imaginary one, or one of each with a sign between them, possibly in parentheses.
-/

namespace Reckoner

namespace Double

/-! ## Doubles -/

/-- The exponent at the start of a text, and what follows it; a mark without digits after it is no exponent. -/
def leadingExponent (t : Text) : Int × Text :=
  match t with
  | mark :: rest =>
    let (negative, rest) := Text.readSign rest
    let (digits, after) := Text.spanDigits rest
    if (mark = 'e' || mark = 'E') && !digits.isEmpty then
      (if negative then -(Text.numeralValue digits : Int) else Text.numeralValue digits, after)
    else (0, t)
  | [] => (0, [])

/-- The decimal number at the start of a text, and what follows it. -/
def leadingDecimal? (negative : Bool) (t : Text) : Option (Double × Text) :=
  let (whole, rest) := Text.spanDigits t
  let (places, rest) :=
    match rest with
    | '.' :: rest => Text.spanDigits rest
    | _ => ([], rest)
  if whole.isEmpty && places.isEmpty then none
  else
    let (exponent, rest) := leadingExponent rest
    some (ofScientific negative (Text.numeralValue (whole ++ places)) (exponent - places.length), rest)

/-- The word for what is not finite at the start of a text, and what follows it. -/
def leadingWord? (negative : Bool) (t : Text) : Option (Double × Text) :=
  let starts := fun word : String => word.toList.isPrefixOf (Text.lowerPlain t)
  if starts "infinity" then some (.infinite negative, t.drop 8)
  else if starts "inf" then some (.infinite negative, t.drop 3)
  else if starts "nan" then some (.nan negative, t.drop 3)
  else none

/-- The double at the start of a text, and what follows it. -/
def leading? (t : Text) : Option (Double × Text) :=
  let (negative, rest) := Text.readSign t
  (leadingDecimal? negative rest).or (leadingWord? negative rest)

/-- The double that a text denotes. -/
def read? (t : Text) : Option Double := do
  match ← leading? (← Text.joinDigits? (← Text.plainNumeral? t)) with
  | (d, []) => some d
  | _ => none

end Double

namespace ComplexDouble

/-! ## Complex doubles -/

/-- What follows the unit, which must be at the start of a text. -/
def afterUnit? : Text → Option Text
  | c :: rest => if c = 'j' ∨ c = 'J' then some rest else none
  | [] => none

/-- The double with a sign at the start of a text, and what follows it; a sign alone stands for one. -/
def leadingSigned? (t : Text) : Option (Double × Text) :=
  match t with
  | sign :: rest =>
    if sign = '+' ∨ sign = '-' then some ((Double.leading? t).getD (.one (sign = '-'), rest)) else none
  | [] => none

/-- The complex number at the start of a text, and what follows it. -/
def leading? (t : Text) : Option (ComplexDouble × Text) :=
  match Double.leading? t with
  | some (d, rest) =>
    match leadingSigned? rest with
    | some (im, rest) => (afterUnit? rest).map fun rest => (⟨d, im⟩, rest)
    | none =>
      match afterUnit? rest with
      | some rest => some (⟨.zero false, d⟩, rest)
      | none => some (ofDouble d, rest)
  | none =>
    let (im, rest) := (leadingSigned? t).getD (.one false, t)
    (afterUnit? rest).map fun rest => (⟨.zero false, im⟩, rest)

/-- The complex number that a text denotes. -/
def read? (t : Text) : Option ComplexDouble := do
  let t ← Text.joinDigits? (← Text.plainNumeral? t)
  let skip := fun t : Text => t.dropWhile CharClass.isWhite
  match t with
  | '(' :: inner =>
    match ← leading? (skip inner) with
    | (z, rest) => if skip rest = [')'] then some z else none
  | t =>
    match ← leading? t with
    | (z, []) => some z
    | _ => none

end ComplexDouble

end Reckoner
