import Reckoner.Datum.Places
import Reckoner.Session.Computation
import Reckoner.Settings
/-!
# Display

How answers are shown. A number that is a decimal with few enough places is shown as one if the settings ask for it; all
else is shown exactly. What has a numeral too long to be written cannot be shown. A display may be set without validation;
main statement: under a display that comes from settings, a value is shown as the settings say.
-/

namespace Reckoner

/-! ## Under settings -/

namespace Settings

/-- The text of a number, if it can be written. -/
def showNumber (s : Settings) : Number → Outcome Text
  | .rational q =>
    if s.showDecimals && !Rational.isInteger q && Rational.fitsDecimal s.decimalPlaces q then
      Rational.decimalText s.decimalPlaces q
    else Rational.written q
  | .complex z => if s.showDecimals then z.decimalText s.decimalPlaces else z.written

/-- The text of a value, if it can be written. -/
def showValue (s : Settings) : Value → Outcome Text
  | .number x => s.showNumber x
  | v => v.written

end Settings

/-! ## Under any display -/

/-- How answers are shown: the most places of decimals, and whether decimals are used at all. -/
structure Display where
  places : Datum
  decimals : Bool
  /-- The places that stand for null. -/
  usualPlaces : Nat

namespace Display

/-- The display that settings ask for. -/
def ofSettings (s : Settings) : Display := ⟨.integer s.decimalPlaces, s.showDecimals, s.decimalPlaces⟩

/-- The display with some fields set without validation. -/
def update (d : Display) (fields : List (Text × Data)) : Display where
  places := ((fields.lookup "DECIMAL_PLACES".toList).map Datum.ofData).getD d.places
  decimals := ((fields.lookup "DISPLAY_DECIMALS".toList).map fun b => !b.isNothing).getD d.decimals
  usualPlaces := d.usualPlaces

/-- The text of a number. -/
def showNumber (d : Display) : Number → Outcome Text
  | .rational q => if d.decimals then Datum.partText d.usualPlaces d.places q else Rational.written q
  | .complex z => if d.decimals then Datum.complexText d.usualPlaces d.places z else z.written

/-- The text of a value. -/
def showValue (d : Display) : Value → Outcome Text
  | .number x => d.showNumber x
  | v => v.written

/-- What is shown for an equation without solutions. -/
def noSolution : Text := "No solution".toList

/-- The text of solutions. -/
def showSolutions (d : Display) : Solutions → Outcome Text
  | .everything => .ok "All real numbers".toList
  | .values [] => .ok noSolution
  | .values roots => do return Text.join [',', ' '] (← roots.mapM d.showNumber)

/-- The text of an answer. -/
def showAnswer (d : Display) : Answer → Outcome Text
  | .value v => d.showValue v
  | .function f => f.written
  | .solutions r => d.showSolutions r

/-- The text of what a line defined: of a function the body, exactly. -/
def showDefinition (d : Display) : Definition → Outcome Text
  | .variable _ v => d.showValue v
  | .function f => f.body.written

/-- The number of places of a display that comes from settings. -/
theorem natural_ofSettings (s : Settings) :
    (ofSettings s).places.natural? (ofSettings s).usualPlaces = some s.decimalPlaces := by
  simp [ofSettings, Datum.natural?]

/-- Under settings a number is shown as the settings say. -/
theorem showNumber_ofSettings (s : Settings) (x : Number) : (ofSettings s).showNumber x = s.showNumber x := by
  have places := natural_ofSettings s
  cases x with
  | rational q =>
    cases shown : s.showDecimals <;> cases whole : Rational.isInteger q <;>
      cases fits : Rational.fitsDecimal s.decimalPlaces q <;>
      simp_all [showNumber, Settings.showNumber, ofSettings, Datum.partText, Datum.fitsDecimal, Datum.decimalText,
        bind, Except.bind]
  | complex z =>
    cases shown : s.showDecimals <;>
      simp_all [showNumber, Settings.showNumber, ofSettings, Datum.complexText]

/-- Under settings a value is shown as the settings say. -/
theorem showValue_ofSettings (s : Settings) (v : Value) : (ofSettings s).showValue v = s.showValue v := by
  cases v with
  | number x => exact showNumber_ofSettings s x
  | matrix m => rfl
  | polynomial p => rfl

/-! ## Data -/

mutual

/-- The text of data: values, functions and lists of them. -/
def showDatum (d : Display) : Datum → Outcome Text
  | .value v => d.showValue v
  | .function f => f.written
  | .allReals => .ok (Datum.plain .allReals)
  | .list items => do
    if items.isEmpty then return noSolution else return Text.join [',', ' '] (← showItems d items)
  | _ => .error .kindMismatch

/-- The texts of the items of a list. -/
def showItems (d : Display) : List Datum → Outcome (List Text)
  | [] => .ok []
  | item :: rest => do
    let shown ← showDatum d item
    return shown :: (← showItems d rest)

end

/-- The text of data as solutions: a list of them, or nothing. -/
def showDatumSolutions (d : Display) (solutions : Datum) : Outcome Text :=
  if solutions.isNothing then .ok noSolution
  else
    match solutions with
    | .list items => d.showDatum (.list items)
    | _ => .error .kindMismatch

end Display

end Reckoner
