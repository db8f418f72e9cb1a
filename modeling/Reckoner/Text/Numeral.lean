import Reckoner.Text.Basic
/-!
# Numerals as people type them

Numerals in any script, with white space around them and single low lines between digits.
-/

namespace Reckoner.Text

open CharClass

/-- A character of a numeral in ASCII: digits of other scripts by their value, white space by a space. Other characters
outside ASCII are part of no numeral. -/
def plainNumeralChar? (c : Char) : Option Char :=
  if c.toNat < 127 then some c
  else if isWhite c then some ' '
  else (digitValue? c).map fun value => Char.ofNat ('0'.toNat + value)

/-- The text of a numeral in ASCII, without the white space around it. -/
def plainNumeral? (t : Text) : Option Text := (t.mapM plainNumeralChar?).map trimWhite

/-- The text without its low lines, which must stand between digits; `previous` is the character before the text. -/
def joinDigitsAfter? (previous : Option Char) : Text → Option Text
  | [] => if previous = some '_' then none else some []
  | '_' :: rest => if previous.any Char.isDigit then joinDigitsAfter? (some '_') rest else none
  | c :: rest =>
    if previous = some '_' && !c.isDigit then none else (joinDigitsAfter? (some c) rest).map (c :: ·)

/-- The text without its low lines, which must stand between digits. -/
def joinDigits? : Text → Option Text := joinDigitsAfter? none

/-- The integer that a text denotes. -/
def integer? (t : Text) : Option Int := do
  let (negative, digits) := readSign (← plainNumeral? t)
  let digits ← joinDigits? digits
  if digits.isEmpty || !digits.all Char.isDigit then none
  else if negative then some (-(numeralValue digits : Int))
  else some (numeralValue digits)

end Reckoner.Text
