import Reckoner.CommandLine.Argument
/-!
# Requests

What a command line asks for. The expressions stand together in one row, before or after the options; further ones after
an option are a misuse, and so is an option that is not known.
-/

namespace Reckoner.CommandLine

/-- The options of a run. -/
structure Options where
  /-- Whether all numbers are shown exactly. -/
  exact : Bool := false
  logLevel : Option Text := none
  /-- The lines to evaluate; without any, the lines of the input are. -/
  lines : List Text := []
  deriving DecidableEq, Repr

/-- What a command line asks for. -/
inductive Request where
  | help
  | misuse
  | run (o : Options)
  deriving DecidableEq, Repr

/-- How far the row of expressions has come. -/
inductive Row where
  | ahead
  | started
  | ended
  deriving DecidableEq, Repr

namespace Row

/-- The row after an option. -/
def atOption : Row → Row
  | .ahead => .ahead
  | _ => .ended

end Row

namespace Request

/-- The request of arguments, given the options so far and whether anything was out of place. -/
def collect (o : Options) (row : Row) (stray : Bool) : List Argument → Request
  | [] => if stray then .misuse else .run o
  | .flag .help none :: _ => .help
  | .flag .help (some _) :: _ => .misuse
  | .flag .exact none :: rest => collect { o with exact := true } row.atOption stray rest
  | .flag .exact (some _) :: _ => .misuse
  | .flag .logLevel (some value) :: rest => collect { o with logLevel := some value } row.atOption stray rest
  | .flag .logLevel none :: .word value :: rest =>
    collect { o with logLevel := some value } row.atOption stray rest
  | .flag .logLevel none :: _ => .misuse
  | .unknown :: rest => collect o row.atOption true rest
  | .word t :: rest =>
    if row = .ended then collect o row true rest else collect { o with lines := o.lines ++ [t] } .started stray rest
  | .divider :: rest => if row = .ended then collect o row true rest else collect o .started stray rest

/-- The request of a command line. -/
def ofTexts (arguments : List Text) : Request :=
  match Argument.ofTexts? arguments with
  | some parts => collect {} .ahead false parts
  | none => .misuse

end Request

end Reckoner.CommandLine
