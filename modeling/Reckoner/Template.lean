import Reckoner.Double.Layout
/-!
# Templates

A template is a text with places in it that data is put into. A place starts with a percent sign; flags, a width and a
precision may stand before the letter that tells what is put there. Two percent signs stand for one.
-/

namespace Reckoner.Template

/-- A number in a place: left out, written out, or taken from the data. -/
inductive Measure where
  | none
  | given (n : Nat)
  | taken
  deriving DecidableEq, Repr

/-- A place of a template. -/
structure Place where
  /-- Whether a key in parentheses is there, and whether its parentheses are closed. -/
  key? : Option Bool
  leftAligned : Bool
  /-- Whether a number that is not negative has a plus sign. -/
  plusShown : Bool
  /-- Whether a number that is not negative has a blank for a sign. -/
  blankShown : Bool
  /-- Whether a number shows its base, or its point in any case. -/
  detailed : Bool
  zeroFilled : Bool
  width : Measure
  precision : Measure
  /-- The letter; none if the template ends before it. -/
  letter? : Option Char
  deriving DecidableEq, Repr

/-- A part of a template. -/
inductive Piece where
  | char (c : Char)
  | place (p : Place)
  deriving DecidableEq, Repr

/-! ## Reading -/

/-- What follows a key that starts with an open parenthesis; none if the parentheses are not closed. -/
def afterKey? : Nat → Text → Option Text
  | _, [] => none
  | depth, c :: rest =>
    if c = ')' then if depth = 0 then some rest else afterKey? (depth - 1) rest
    else afterKey? (if c = '(' then depth + 1 else depth) rest

/-- The number at the start of a text, and what follows it. -/
def readMeasure (t : Text) : Measure × Text :=
  match t with
  | '*' :: rest => (.taken, rest)
  | t =>
    let (digits, rest) := t.span Char.isDigit
    if digits.isEmpty then (.none, t) else (.given (Text.numeralValue digits), rest)

/-- The precision at the start of a text, and what follows it; a point alone stands for zero. -/
def readPrecision : Text → Measure × Text
  | '.' :: rest =>
    match readMeasure rest with
    | (.none, rest) => (.given 0, rest)
    | measure => measure
  | t => (.none, t)

/-- Whether a character is a flag. -/
def isFlag (c : Char) : Bool := ['-', '+', ' ', '#', '0'].contains c

/-- What follows a letter for the size of a number, which means nothing. -/
def afterSize (t : Text) : Text :=
  match t with
  | c :: rest => if c = 'h' ∨ c = 'l' ∨ c = 'L' then rest else t
  | [] => []

/-- The place that starts after a percent sign, and what follows it. -/
def readPlace (t : Text) : Place × Text :=
  let (key?, rest) : Option Bool × Text :=
    match t with
    | '(' :: inside =>
      match afterKey? 0 inside with
      | some rest => (some true, rest)
      | none => (some false, [])
    | t => (none, t)
  let (flags, rest) := rest.span isFlag
  let (width, rest) := readMeasure rest
  let (precision, rest) := readPrecision rest
  let rest := afterSize rest
  ({ key?, leftAligned := flags.contains '-', plusShown := flags.contains '+', blankShown := flags.contains ' ',
     detailed := flags.contains '#', zeroFilled := flags.contains '0', width, precision, letter? := rest.head? },
    rest.drop 1)

/-- The pieces of a template; each step uses up at least one character of the text. -/
def readPieces : Nat → Text → List Piece
  | left + 1, '%' :: '%' :: rest => .char '%' :: readPieces left rest
  | left + 1, c :: rest =>
    if c = '%' then
      let (place, rest) := readPlace rest
      .place place :: readPieces left rest
    else .char c :: readPieces left rest
  | _, _ => []

/-- The pieces of a template. -/
def read (t : Text) : List Piece := readPieces t.length t

/-! ## Filling -/

/-- A text at its place in a field of some width. -/
def Place.aligned (p : Place) (width : Nat) (t : Text) : Text :=
  let blanks := List.replicate (width - t.length) ' '
  if p.leftAligned then t ++ blanks else blanks ++ t

/-- A number in a field of some width: a sign, a mark of its base, and digits. -/
def Place.number (p : Place) (width : Nat) (negative : Bool) (mark digits : Text) : Text :=
  let sign : Text := if negative then ['-'] else if p.plusShown then ['+'] else if p.blankShown then [' '] else []
  let zeros : Text :=
    if p.zeroFilled && !p.leftAligned then
      List.replicate (width - (sign.length + mark.length + digits.length)) '0'
    else []
  p.aligned width (sign ++ mark ++ zeros ++ digits)

/-- An integer in a base: its mark and its digits, at least so many. -/
def Place.integer (p : Place) (width digits : Nat) (base : Nat) (mark : Text) (i : Int) : Text :=
  p.number width (decide (i < 0)) (if p.detailed then mark else [])
    (Text.padZeros digits (Nat.toDigits base i.natAbs))

/-- A double. -/
def Place.double (p : Place) (width digits : Nat) (layout : Double.Layout) (d : Double) : Text :=
  p.number width (d.isNegative && !d.isNaN) [] (Double.sizeText layout p.detailed digits d)

end Reckoner.Template
