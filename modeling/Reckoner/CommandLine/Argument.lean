import Reckoner.Rational.Literal
/-!
# Arguments

What each argument of the command line is. An argument that begins with a dash is an option unless it is a negative number
or holds a space; the long options may be cut short, and after two dashes alone everything is an expression.
-/

namespace Reckoner.CommandLine

/-- The options. -/
inductive Flag where
  | help
  | exact
  | logLevel
  deriving DecidableEq, Repr

namespace Flag

/-- All options. -/
def all : List Flag := [.help, .exact, .logLevel]

/-- The long name. -/
def long : Flag → Text
  | .help => "--help".toList
  | .exact => "--exact".toList
  | .logLevel => "--log-level".toList

/-- The option of a full long name. -/
def named? (t : Text) : Option Flag := all.find? (·.long = t)

/-- The options whose long name begins so. -/
def startingWith (t : Text) : List Flag := all.filter fun f => t.isPrefixOf f.long

end Flag

/-- An argument. -/
inductive Argument where
  /-- An expression, or the value of an option before it. -/
  | word (t : Text)
  /-- Two dashes alone. -/
  | divider
  /-- An option, with the value that is part of the same argument. -/
  | flag (f : Flag) (attached : Option Text)
  | unknown
  deriving DecidableEq, Repr

namespace Argument

/-- Whether a text is a negative decimal number; one line break may follow it. -/
def isNegativeNumber : Text → Bool
  | '-' :: rest =>
    let (whole, rest) := Text.spanDigits rest
    match rest with
    | '.' :: rest =>
      let (places, rest) := Text.spanDigits rest
      !places.isEmpty && Rational.atEnd rest
    | rest => !whole.isEmpty && Rational.atEnd rest
  | _ => false

/-- An argument with a dash that names no option. -/
def unnamed (t : Text) : Argument := if isNegativeNumber t || t.contains ' ' then .word t else .unknown

/-- The name in an argument, and the value after an equals sign. -/
def cutValue (t : Text) : Text × Option Text :=
  match Text.cut? ['='] t with
  | some (name, value) => (name, some value)
  | none => (t, none)

/-- An argument with two dashes; none if it is short for several options. -/
def ofLong? (t : Text) : Option Argument :=
  let (name, value) := cutValue t
  match Flag.named? t, Flag.named? name, Flag.startingWith name with
  | some f, _, _ => some (.flag f none)
  | none, some f, _ => some (.flag f value)
  | none, none, [f] => some (.flag f value)
  | none, none, [] => some (unnamed t)
  | none, none, _ => none

/-- The letter for help, with what follows it: the letter may be repeated, anything else is a value out of place. -/
def ofLetter (rest : Text) : Argument :=
  let value := if rest.head? = some '=' then rest.drop 1 else rest
  let repeats := !value.isEmpty && value.all (· == 'h')
  .flag .help (if rest.isEmpty || repeats then none else some value)

/-- An argument before the divider; none if it is short for several options. -/
def ofText? (t : Text) : Option Argument :=
  match t with
  | ['-'] => some (.word t)
  | '-' :: '-' :: _ => ofLong? t
  | '-' :: 'h' :: rest => some (ofLetter rest)
  | '-' :: _ => some (unnamed t)
  | _ => some (.word t)

/-- The arguments of a command line; none if one is short for several options. -/
def ofTexts? : List Text → Option (List Argument)
  | [] => some []
  | t :: rest =>
    if t = ['-', '-'] then some (.divider :: rest.map .word)
    else do
      let a ← ofText? t
      return a :: (← ofTexts? rest)

end Argument

end Reckoner.CommandLine
