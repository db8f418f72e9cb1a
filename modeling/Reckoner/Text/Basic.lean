import Reckoner.Text.CharClass
/-!
# Text

Text is handled as its list of characters: numerals, dropping blanks, and cutting a text at a mark.
-/

namespace Reckoner

/-- Text is the list of its characters. -/
abbrev Text := List Char

namespace Text

open CharClass

/-- The text as a string, as messages and output hold it. -/
def str (t : Text) : String := String.ofList t

/-! ## Numerals -/

/-- The decimal numeral of a natural number. -/
def numeral (n : Nat) : Text := Nat.toDigits 10 n

/-- The most digits of a numeral that is written. Powers with this exponent are not to be computed where they are only
compared. -/
@[irreducible] def longestNumeral : Nat := 4300

/-- Whether the numeral of a natural number is short enough to be written. -/
def isWritable (n : Nat) : Bool := n < Nat.pow 10 longestNumeral

/-- These are the numerals with at most so many digits. -/
theorem isWritable_iff {n : Nat} : isWritable n = true ↔ (numeral n).length ≤ longestNumeral := by
  rw [isWritable, decide_eq_true_iff, numeral, Nat.length_toDigits_le_iff (by decide) (by simp [longestNumeral])]
  rfl

/-- The decimal numeral of an integer; a minus sign stands before a negative one. -/
def signedNumeral (i : Int) : Text :=
  if i < 0 then '-' :: numeral i.natAbs else numeral i.natAbs

/-- The number that a run of digits denotes, in any script. -/
def numeralValue (digits : Text) : Nat :=
  digits.foldl (fun n c => 10 * n + (digitValue? c).getD 0) 0

/-- The leading digits of a text, and what follows them. -/
def spanDigits (t : Text) : Text × Text := t.span isDigit

/-- A leading sign: whether it is a minus, and what follows it. -/
def readSign : Text → Bool × Text
  | '-' :: rest => (true, rest)
  | '+' :: rest => (false, rest)
  | t => (false, t)

/-! ## Blanks -/

/-- The text without its spaces; other blanks stay. -/
def withoutSpaces (t : Text) : Text := t.filter (· != ' ')

/-- The text without any blank. -/
def squeeze (t : Text) : Text := t.filter (!isBlank ·)

/-- The text without the characters of a class at its two ends. -/
def trimWith (drop : Char → Bool) (t : Text) : Text := ((t.dropWhile drop).reverse.dropWhile drop).reverse

/-- The text without the blanks at its two ends. -/
def trim (t : Text) : Text := trimWith isBlank t

/-- The text without the white space at its two ends; the four separators that are blanks stay. -/
def trimWhite (t : Text) : Text := trimWith isWhite t

/-! ## Cutting -/

/-- What stands before and after the first occurrence of `mark`. -/
def cut? (mark : Text) : Text → Option (Text × Text)
  | [] => if mark.isEmpty then some ([], []) else none
  | c :: rest =>
    if mark.isPrefixOf (c :: rest) then some ([], (c :: rest).drop mark.length)
    else (cut? mark rest).map fun (before, after) => (c :: before, after)

/-- Whether `mark` occurs in the text. -/
def has (mark t : Text) : Bool := (cut? mark t).isSome

/-- The text without its last character, if that is `c`. -/
def chop? (c : Char) (t : Text) : Option Text :=
  if t.getLast? = some c then some t.dropLast else none

/-- What stands between an opening and a closing character at the two ends of a text. -/
def between? (first last : Char) : Text → Option Text
  | c :: rest => if c = first then chop? last rest else none
  | [] => none

/-- The texts one after the other, with `separator` between neighbours. -/
def join (separator : Text) (ts : List Text) : Text := separator.intercalate ts

/-- The texts of a list, each at its first place only. -/
def distinct (ts : List Text) : List Text :=
  ts.foldl (fun seen t => if seen.contains t then seen else seen ++ [t]) []

/-- The text filled up on the left with zeros to at least `width` characters. -/
def padZeros (width : Nat) (t : Text) : Text := List.replicate (width - t.length) '0' ++ t

/-- The text without the zeros at its end. -/
def dropTrailingZeros (t : Text) : Text := (t.reverse.dropWhile (· == '0')).reverse

end Text

end Reckoner
