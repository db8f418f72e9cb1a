import Reckoner.Fault
import Reckoner.Text.Numeral
/-!
# Settings

The settings of the calculator and their validation. Each field may be given as data or stand as text in the environment;
data comes before the environment, and fields that nobody names are ignored.
-/

namespace Reckoner

/-- The settings. -/
structure Settings where
  appName : Text := "computor".toList
  logLevel : Text := "WARNING".toList
  logFormat : Text := "text".toList
  logFile : Option Text := none
  /-- The most decimals with which a number is shown as a decimal. -/
  decimalPlaces : Nat := 10
  /-- The decimals of a square root that is not rational. -/
  rootPlaces : Nat := 10
  /-- Whether numbers are shown as decimals where they are decimals. -/
  showDecimals : Bool := true
  deriving DecidableEq, Repr

namespace Settings

/-! ## Reading fields -/

/-- A text field. -/
def readText : Data → Outcome Text
  | .text t => .ok t
  | _ => .error .invalid

/-- A text field that may be null. -/
def readTextOrNull : Data → Outcome (Option Text)
  | .null => .ok none
  | d => (readText d).map some

/-- The text without a point and the zeros after it, if nothing else follows the point. -/
def withoutPointZeros (t : Text) : Text :=
  match Text.cut? ['.'] t with
  | some (whole, zeros) => if zeros.all (· == '0') then whole else t
  | none => t

/-- Whether an integer without needless zeros may start with a character. -/
def startsInteger (c : Char) : Bool := c == '-' || (c.isDigit && c != '0')

/-- The text from where an integer starts that has no needless zeros. Only zeros, and low lines after the first of them,
may stand before; of a text that holds nothing else the last character is left. -/
def withoutLeadingZeros? (t : Text) : Option Text :=
  let start := if t.head? = some '0' then t.dropWhile fun c => c == '0' || c == '_' else t
  match start with
  | [] => t.getLast?.map fun c => [c]
  | c :: _ => if startsInteger c then some start else none

/-- The text without the low lines in it, which must stand single and inside. -/
def withoutLowLines (t : Text) : Text :=
  if t.head? = some '_' || t.getLast? = some '_' || Text.has ['_', '_'] t then t else t.filter (· != '_')

/-- The natural number that plain digits without needless zeros denote. -/
def readDigits? (t : Text) : Option Nat :=
  if t.isEmpty || !t.all Char.isDigit || (t.head? = some '0' && t != ['0']) then none else some (Text.numeralValue t)

/-- The integer that a text denotes: an optional sign and digits, and possibly a point with zeros after it. A plus sign
stands alone, so that no minus sign follows it. -/
def readIntegerText? (t : Text) : Option Int := do
  let trimmed := Text.trimWhite t
  let unsigned := if trimmed.head? = some '+' then trimmed.drop 1 else trimmed
  if trimmed.take 2 = ['+', '-'] then none
  let digits := withoutLowLines (← withoutLeadingZeros? (withoutPointZeros unsigned))
  match digits with
  | '-' :: digits => return -(← readDigits? digits : Nat)
  | digits => return (← readDigits? digits : Nat)

/-- The size that all doubles stay below that an integer field may be given as. -/
def doubleLimit : Int := Int.pow 2 63

/-- An integer field. -/
def readInteger : Data → Outcome Int
  | .integer i => .ok i
  | .truth b => .ok (if b then 1 else 0)
  | .real d =>
    match d.toRat? with
    | some q => if q.den = 1 && q.num.natAbs < doubleLimit then .ok q.num else .error .invalid
    | none => .error .invalid
  | .text t =>
    match readIntegerText? t with
    | some i => .ok i
    | none => .error .invalid
  | _ => .error .invalid

/-- An integer field that is at least `least`. -/
def readAtLeast (least : Nat) (d : Data) : Outcome Nat := do
  let i ← readInteger d
  if (least : Int) ≤ i then return i.toNat else .error .invalid

/-- The words for true. -/
def wordsForTrue : List String := ["1", "on", "t", "true", "y", "yes"]

/-- The words for false. -/
def wordsForFalse : List String := ["0", "off", "f", "false", "n", "no"]

/-- A truth field. -/
def readTruth : Data → Outcome Bool
  | .truth b => .ok b
  | .text t =>
    let word := Text.str (t.map Char.toLower)
    if wordsForTrue.contains word then .ok true
    else if wordsForFalse.contains word then .ok false
    else .error .invalid
  | d => do
    let i ← readInteger d
    if i = 1 then return true else if i = 0 then return false else .error .invalid

/-! ## Reading settings -/

/-- The settings that the environment and the given fields lay down. -/
def read (environment : List (Text × Text)) (given : List (Text × Data)) : Outcome Settings := do
  let field {α : Type} (name : String) (usual : α) (read : Data → Outcome α) : Outcome α :=
    match (given.lookup name.toList).or ((environment.lookup name.toList).map .text) with
    | some d => read d
    | none => .ok usual
  let usual : Settings := {}
  return {
    appName := ← field "APP_NAME" usual.appName readText
    logLevel := ← field "LOG_LEVEL" usual.logLevel readText
    logFormat := ← field "LOG_FORMAT" usual.logFormat readText
    logFile := ← field "LOG_FILE" usual.logFile readTextOrNull
    decimalPlaces := ← field "DECIMAL_PLACES" usual.decimalPlaces (readAtLeast 0)
    rootPlaces := ← field "SQRT_DECIMAL_PLACES" usual.rootPlaces (readAtLeast 1)
    showDecimals := ← field "DISPLAY_DECIMALS" usual.showDecimals readTruth }

/-- The settings as the fields of a record. -/
def fields (s : Settings) : List (Text × Data) :=
  [("APP_NAME".toList, .text s.appName), ("LOG_LEVEL".toList, .text s.logLevel),
   ("LOG_FORMAT".toList, .text s.logFormat),
   ("LOG_FILE".toList, match s.logFile with | some t => .text t | none => .null),
   ("DECIMAL_PLACES".toList, .count s.decimalPlaces), ("SQRT_DECIMAL_PLACES".toList, .count s.rootPlaces),
   ("DISPLAY_DECIMALS".toList, .truth s.showDecimals)]

end Settings

end Reckoner
