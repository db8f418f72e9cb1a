import Reckoner.Double.Text
import Reckoner.Text.Casing
import Reckoner.Text.Numeral
/-!
# Decimal numbers

Numbers in decimal scientific notation, which keep their digits and their power of ten: how they are read and shown.
-/

namespace Reckoner

/-- A decimal number: `± digits * 10 ^ exponent`, an infinity, or no number at all. -/
inductive Decimal where
  | finite (negative : Bool) (digits : Nat) (exponent : Int)
  | infinite (negative : Bool)
  | undefined (negative signalling : Bool) (payload : Text)
  deriving DecidableEq, Repr

namespace Decimal

/-! ## Reading -/

/-- The largest power of ten that the first digit of a number may stand for. -/
def greatestPower : Int := 999999999999999999

/-- The least power of ten that the last digit of a number may stand for. -/
def leastPower : Int := -1999999999999999997

/-- The exponent part of a number, which may be missing. -/
def readExponent? : Text → Option Int
  | [] => some 0
  | mark :: rest =>
    let (negative, digits) := Text.readSign rest
    if (mark = 'e' || mark = 'E') && !digits.isEmpty && digits.all Char.isDigit then
      some (if negative then -(Text.numeralValue digits : Int) else Text.numeralValue digits)
    else none

/-- A number with its power of ten, if that is in range. -/
def ofDigits? (negative : Bool) (digits : Nat) (exponent : Int) : Option Decimal :=
  if exponent < leastPower || greatestPower < exponent + (Text.numeral digits).length - 1 then none
  else some (.finite negative digits exponent)

/-- Digits with an optional point and an optional exponent. -/
def readUnsigned? (negative : Bool) (t : Text) : Option Decimal :=
  let (whole, rest) := Text.spanDigits t
  let (places, rest) :=
    match rest with
    | '.' :: rest => Text.spanDigits rest
    | _ => ([], rest)
  if whole.isEmpty && places.isEmpty then none
  else do ofDigits? negative (Text.numeralValue (whole ++ places)) ((← readExponent? rest) - places.length)

/-- The words for what is not a finite number, in any case of letters; digits may follow that tell where it comes
from. -/
def readWord? (negative : Bool) (t : Text) : Option Decimal :=
  let payload? := fun t : Text => if t.all Char.isDigit then some (t.dropWhile (· == '0')) else none
  match Text.lowerPlain t with
  | ['i', 'n', 'f'] => some (.infinite negative)
  | ['i', 'n', 'f', 'i', 'n', 'i', 't', 'y'] => some (.infinite negative)
  | 'n' :: 'a' :: 'n' :: rest => (payload? rest).map (.undefined negative false)
  | 's' :: 'n' :: 'a' :: 'n' :: rest => (payload? rest).map (.undefined negative true)
  | _ => none

/-- The decimal number that a text denotes. Low lines do not count, wherever they stand. -/
def read? (t : Text) : Option Decimal := do
  let t ← ((Text.trim t).filter (· != '_')).mapM Text.plainNumeralChar?
  let (negative, rest) := Text.readSign t
  (readUnsigned? negative rest).or (readWord? negative rest)

/-! ## Value and text -/

/-- The exact value of a finite decimal number. -/
def toRat? : Decimal → Option Rat
  | .finite negative digits exponent =>
    some (if negative then -Double.decimal digits exponent else Double.decimal digits exponent)
  | _ => none

/-- The text of a decimal number: the point is written out when the power of ten is not positive and at most five
zeros follow the point, else the exponent is. -/
def text (d : Decimal) : Text :=
  let signed := fun (negative : Bool) (t : Text) => if negative then '-' :: t else t
  match d with
  | .infinite negative => signed negative "Infinity".toList
  | .undefined negative signalling payload =>
    signed negative ((if signalling then "sNaN".toList else "NaN".toList) ++ payload)
  | .finite negative digits exponent =>
    let shown := Text.numeral digits
    let left : Int := exponent + shown.length
    signed negative <|
      if exponent ≤ 0 ∧ -6 < left then
        if exponent = 0 then shown
        else if left ≤ 0 then '0' :: '.' :: List.replicate (-left).toNat '0' ++ shown
        else shown.take left.toNat ++ '.' :: shown.drop left.toNat
      else
        let tail := if shown.length ≤ 1 then [] else '.' :: shown.drop 1
        let power := left - 1
        shown.take 1 ++ tail ++ 'E' :: (if power < 0 then '-' else '+') :: Text.numeral power.natAbs

/-- The double nearest to a decimal number. -/
def toDouble : Decimal → Double
  | .infinite negative => .infinite negative
  | .undefined negative .. => .nan negative
  | .finite negative digits exponent => Double.ofScientific negative digits exponent

end Decimal

end Reckoner
