import Reckoner.Text.Basic
/-!
# Quoted text

Two ways to write a text between quotes: with every printable character as itself, or in ASCII alone.
-/

namespace Reckoner.Text

/-- A number in lower-case hexadecimal with at least `width` digits. -/
def hexadecimal (width n : Nat) : Text := padZeros width (Nat.toDigits 16 n)

/-! ## Printable characters as themselves -/

/-- The code point of a character after a backslash, as two, four or eight digits. -/
def codePoint (c : Char) : Text :=
  if c.toNat < 0x100 then '\\' :: 'x' :: hexadecimal 2 c.toNat
  else if c.toNat < 0x10000 then '\\' :: 'u' :: hexadecimal 4 c.toNat
  else '\\' :: 'U' :: hexadecimal 8 c.toNat

/-- A character between two `quote` characters: a backslash before the quote and the backslash, names for the
common control characters, and a code point for all else that is not printable. -/
def quotedChar (quote c : Char) : Text :=
  if c = quote ∨ c = '\\' then ['\\', c]
  else if c = '\n' then ['\\', 'n']
  else if c = '\r' then ['\\', 'r']
  else if c = '\t' then ['\\', 't']
  else if CharClass.isPrintable c then [c]
  else codePoint c

/-- The text between single quotes, or between double ones if it holds single quotes only. -/
def quoted (t : Text) : Text :=
  let quote := if t.contains '\'' && !t.contains '"' then '"' else '\''
  quote :: t.flatMap (quotedChar quote) ++ [quote]

/-! ## ASCII alone -/

/-- The text with every character outside ASCII by its code point. -/
def asciiEscaped (t : Text) : Text := t.flatMap fun c => if c.toNat < 0x80 then [c] else codePoint c

/-- A character between double quotes in ASCII; one above `0xffff` is written as two halves. -/
def asciiChar (c : Char) : Text :=
  let unit := fun n : Nat => '\\' :: 'u' :: hexadecimal 4 n
  if c = '"' ∨ c = '\\' then ['\\', c]
  else if c = '\n' then ['\\', 'n']
  else if c = '\r' then ['\\', 'r']
  else if c = '\t' then ['\\', 't']
  else if c = '\x08' then ['\\', 'b']
  else if c = '\x0c' then ['\\', 'f']
  else if ' ' ≤ c ∧ c ≤ '~' then [c]
  else if c.toNat < 0x10000 then unit c.toNat
  else
    let rest := c.toNat - 0x10000
    unit (0xd800 + rest / 0x400) ++ unit (0xdc00 + rest % 0x400)

/-- The text between double quotes, in ASCII. -/
def asciiQuoted (t : Text) : Text := '"' :: t.flatMap asciiChar ++ ['"']

end Reckoner.Text
