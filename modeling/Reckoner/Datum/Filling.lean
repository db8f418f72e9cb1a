import Reckoner.Datum.Numeric
import Reckoner.Template
/-!
# Filling templates with data

A template takes its data one by one: the items of a tuple, or one datum that is no tuple. All data must be used, except
that data with parts may be left alone.
-/

namespace Reckoner.Datum

/-! ## What is put into a place -/

/-- The integer that a place for decimal integers takes. -/
def decimalInteger : Datum → Outcome Int
  | .text _ => .error .kindMismatch
  | d => d.truncated

/-- The character that data stands for: a text of one character, or a code point. -/
def character : Datum → Outcome Char
  | .text [c] => .ok c
  | d =>
    match d.plainInteger? with
    | some i => if 0 ≤ i ∧ i < 0x110000 then .ok (Char.ofNat i.toNat) else .error .overflow
    | none => .error .kindMismatch

/-- The integer that data without a fraction is. -/
def exactInteger (d : Datum) : Outcome Int :=
  match d.plainInteger? with
  | some i => .ok i
  | none => .error .kindMismatch

/-- The text of a datum in a place of a given width and precision. -/
def inPlace (p : Template.Place) (width : Nat) (precision? : Option Nat) (letter : Char) (d : Datum) : Outcome Text :=
  let shown := fun t : Text => p.aligned width (match precision? with | some n => t.take n | none => t)
  let integer := fun (base : Nat) (mark : Text) (i : Int) => p.integer width (precision?.getD 0) base mark i
  let double := fun layout => do
    return p.double width (precision?.getD 6) layout (← d.numberDouble)
  let upper := fun (t : Text) => t.map Char.toUpper
  match letter with
  | 's' => .ok (shown d.plain)
  | 'r' => .ok (shown d.nested)
  | 'a' => .ok (shown (Text.asciiEscaped d.nested))
  | 'c' => do return p.aligned width [← d.character]
  | 'd' | 'i' | 'u' => do return integer 10 [] (← d.decimalInteger)
  | 'o' => do return integer 8 ['0', 'o'] (← d.exactInteger)
  | 'x' => do return integer 16 ['0', 'x'] (← d.exactInteger)
  | 'X' => do return upper (integer 16 ['0', 'x'] (← d.exactInteger))
  | 'f' => double .positional
  | 'e' => double .scientific
  | 'g' => double .general
  | 'F' => do return upper (← double .positional)
  | 'E' => do return upper (← double .scientific)
  | 'G' => do return upper (← double .general)
  | _ => .error .meaningless

/-! ## Taking data -/

/-- Whether data has parts that a key could name. -/
def hasParts : Datum → Bool
  | .list _ => true
  | .object => true
  | .value (.matrix _) => true
  | _ => false

/-- The next datum and those after it. -/
def next : List Datum → Outcome (Datum × List Datum)
  | d :: rest => .ok (d, rest)
  | [] => .error .kindMismatch

/-- The number that a measure stands for, which must be below `bound`; one that is taken from the data may be
negative. -/
def measured (bound : Nat) (m : Template.Measure) (ds : List Datum) : Outcome (Option Int × List Datum) :=
  match m with
  | .none => .ok (none, ds)
  | .given n => if n < bound then .ok (some n, ds) else .error .meaningless
  | .taken => do
    let (d, rest) ← next ds
    let i ← d.exactInteger
    if i < bound ∧ -(bound : Int) ≤ i then return (some i, rest) else .error .overflow

/-- What is put into a place, and the data that is left. A key finds nothing: no data has named parts. -/
def fillPlace (parted object : Bool) (p : Template.Place) (ds : List Datum) : Outcome (Text × List Datum) := do
  match p.key? with
  | some closed =>
    if !parted then .error .kindMismatch
    else if !closed then .error .meaningless
    else .error (if object then .unknownKey else .kindMismatch)
  | none =>
    let (width?, ds) ← measured (Nat.pow 2 63) p.width ds
    let (precision?, ds) ← measured (Nat.pow 2 31) p.precision ds
    let width := (width?.getD 0).natAbs
    let p := if width?.any (· < 0) then { p with leftAligned := true } else p
    match p.letter? with
    | none => .error .meaningless
    | some letter =>
      let (d, ds) ← next ds
      if heldBelow ≤ width then .error .outOfMemory
      else return (← d.inPlace p width (precision?.map Int.toNat) letter, ds)

/-- The text of the pieces of a template, and the data that is left. -/
def fillPieces (parted object : Bool) : List Template.Piece → List Datum → Outcome (Text × List Datum)
  | [], ds => .ok ([], ds)
  | .char c :: rest, ds => do
    let (t, ds) ← fillPieces parted object rest ds
    return (c :: t, ds)
  | .place p :: rest, ds => do
    let (t, ds) ← fillPlace parted object p ds
    let (u, ds) ← fillPieces parted object rest ds
    return (t ++ u, ds)

/-- A template filled with data. -/
def fill (template : Text) (d : Datum) : Outcome Text := do
  let ds := match d with | .tuple items => items | d => [d]
  let object := match d with | .object => true | _ => false
  let (t, left) ← fillPieces d.hasParts object (Template.read template) ds
  if left.isEmpty || d.hasParts then return t else .error .kindMismatch

end Reckoner.Datum
