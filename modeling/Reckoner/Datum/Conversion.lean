import Reckoner.Datum.Basic
/-!
# Data as values

The value that data stands for: numbers stand for rational numbers, text for the literal that it is, lists of lists for
matrices. A double stands for the shortest decimal that reads back as it.
-/

namespace Reckoner.Datum

/-! ## Structured data -/

mutual

/-- Structured data as data of any kind; what its records hold is not looked at. -/
def ofData : Data → Datum
  | .null => .nothing
  | .truth b => .truth b
  | .integer i => .integer i
  | .real d => .double d
  | .text t => .text t
  | .list items => .list (ofDataItems items)
  | .record _ => .object

/-- The items of a list as data of any kind. -/
def ofDataItems : List Data → List Datum
  | [] => []
  | d :: rest => ofData d :: ofDataItems rest

end

/-! ## Numbers -/

/-- The rational number that data stands for. -/
def toRat : Datum → Outcome Rat
  | .truth b => .ok (if b then 1 else 0)
  | .integer i => .ok i
  | .value (.number (.rational q)) => .ok q
  | .double d =>
    match d.shownValue? with
    | some q => .ok q
    | none => refuse (.notFinite d.text)
  | .decimal d =>
    match d.toRat? with
    | some q => .ok q
    | none => refuse (.notFinite d.text)
  | .text t => Rational.parse t
  | d => refuse (.noRationalFrom d.typeName)

/-- The quotient of two data as a rational number. -/
def toQuotient (numerator denominator : Datum) : Outcome Rat := do
  let a ← numerator.toRat
  let b ← denominator.toRat
  if b = 0 then refuse .zeroDenominator else return a / b

/-- The complex number with two data as its parts. -/
def toGaussian (re im : Datum) : Outcome Gaussian := do
  return ⟨← re.toRat, ← im.toRat⟩

/-- The exponent that data stands for: only integers and values that are integers are taken. -/
def toExponent : Datum → Outcome Int
  | .truth b => .ok (if b then 1 else 0)
  | .integer i => .ok i
  | .value v => v.exponent
  | d => refuse (.badExponent d.plain)

/-! ## Values -/

/-- The number that a text denotes. -/
def textValue (t : Text) : Outcome Value :=
  match Gaussian.parse? t with
  | some z => .ok (.number (.ofGaussian z))
  | none => (Rational.parse t).map Value.rational

/-- A value as a cell of a matrix: it must be a number. -/
def cellOf (v : Value) : Outcome Gaussian :=
  match v.simplify.toNumber? with
  | some x => .ok x.toGaussian
  | none => refuse (.nonScalarCell v.simplify.text)

/-- Whether the first item is a list. -/
def startsWithList : List Datum → Bool
  | .list _ :: _ => true
  | .tuple _ :: _ => true
  | _ => false

mutual

/-- The value that data stands for. -/
def toValue : Datum → Outcome Value
  | .value v => .ok v
  | .text t => textValue t
  | .complexDouble z => do
    return .number (.ofGaussian (← toGaussian (.double z.re) (.double z.im)))
  | .list items =>
    if startsWithList items then do return .matrix (← Mat.ofRows (← rowsCells items))
    else refuse (.noValueFrom "list".toList)
  | .tuple items =>
    if startsWithList items then do return .matrix (← Mat.ofRows (← rowsCells items))
    else refuse (.noValueFrom "tuple".toList)
  | .truth b => (toRat (.truth b)).map Value.rational
  | .integer i => (toRat (.integer i)).map Value.rational
  | .double d => (toRat (.double d)).map Value.rational
  | .decimal d => (toRat (.decimal d)).map Value.rational
  | .nothing => refuse (.noValueFrom "NoneType".toList)
  | .object => refuse (.noValueFrom "dict".toList)
  | .function _ => refuse (.noValueFrom "Function".toList)
  | .allReals => refuse (.noValueFrom "AllRealNumbers".toList)

/-- The cells of rows. -/
def rowsCells : List Datum → Outcome (List (List Gaussian))
  | [] => .ok []
  | row :: rest => do
    let cells ← rowCells row
    return cells :: (← rowsCells rest)

/-- The cells of a row. A text is a row of its characters; a value is a row of its named parts, which are no cells. -/
def rowCells : Datum → Outcome (List Gaussian)
  | .list items => cells items
  | .tuple items => cells items
  | .text t => t.mapM fun c => do cellOf (← textValue [c])
  | .object => .ok []
  | .value _ => refuse (.noValueFrom "tuple".toList)
  | .function _ => refuse (.noValueFrom "tuple".toList)
  | _ => .error .kindMismatch

/-- Data as cells. -/
def cells : List Datum → Outcome (List Gaussian)
  | [] => .ok []
  | d :: rest => do
    let cell ← cellOf (← toValue d)
    return cell :: (← cells rest)

end

/-! ## Matrices -/

/-- The name of the first part of a value. -/
def firstPart : Value → Text
  | .number (.rational _) => "numerator".toList
  | .number (.complex _) => "real".toList
  | .matrix _ => "rows".toList
  | .polynomial _ => "terms".toList

/-- The matrix whose rows are given. Named parts are no rows. -/
def toMat : Datum → Outcome Mat
  | .value (.matrix m) => .ok m
  | .list rows => do Mat.ofRows (← rowsCells rows)
  | .tuple rows => do Mat.ofRows (← rowsCells rows)
  | .text t => do Mat.ofRows (← t.mapM fun c => do return [← cellOf (← textValue [c])])
  | .object => refuse .emptyMatrix
  | .value v => do Mat.ofRows [[← cellOf (← textValue (firstPart v))]]
  | .function _ => do Mat.ofRows [[← cellOf (← textValue "name".toList)]]
  | _ => .error .kindMismatch

/-! ## Polynomials -/

/-- The coefficient that data stands for; a polynomial is none. -/
def toCoeff (d : Datum) : Outcome Coeff := do
  match (← d.toValue).toCoeff? with
  | some c => return c
  | none => refuse .polynomialCoefficient

/-- The power that data stands for: an integer that is not negative. -/
def toPower : Datum → Outcome Nat
  | .integer i => if 0 ≤ i then .ok i.toNat else refuse (.badPower (Text.signedNumeral i))
  | d => refuse (.badPower d.plain)

/-- A name that data stands for. -/
def toName : Datum → Outcome Text
  | .text t => .ok t
  | _ => .error .invalid

/-- The polynomial with the given powers and coefficients. -/
def toPoly (entries : List (Datum × Datum)) (var : Datum) : Outcome Poly := do
  let terms ← entries.mapM fun (power, coefficient) => do
    let n ← power.toPower
    return (n, ← coefficient.toCoeff)
  return .ofTerms (← var.toName) terms

end Reckoner.Datum
