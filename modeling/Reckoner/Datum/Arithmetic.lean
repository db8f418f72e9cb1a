import Reckoner.Datum.Conversion
import Reckoner.Datum.Filling
/-!
# Operators on data

An operator takes any two data. Integers and truth values act as rational numbers beside a value; functions combine with
functions; plain numbers, texts and lists combine among themselves. All other pairs are a mismatch of kinds.
-/

namespace Reckoner.Datum

/-! ## Plain numbers -/

/-- The decimal number that a decimal number or an integer is. -/
def asDecimal? : Datum → Option Decimal
  | .decimal d => some d
  | d => d.plainInteger?.map fun i => .finite (decide (i < 0)) i.natAbs 0

/-- Whether data is a double, an integer or a truth value. -/
def isReal : Datum → Bool
  | .double _ => true
  | d => d.plainInteger?.isSome

/-- Whether data is a pair of doubles. -/
def isComplexDouble : Datum → Bool
  | .complexDouble _ => true
  | _ => false

/-- An operator on two doubles. A power may be complex. -/
def doubles (o : Operator) (x y : Double) : Outcome Datum :=
  match o with
  | .plus => .ok (.double (x.add y))
  | .minus => .ok (.double (x.sub y))
  | .times => .ok (.double (x.mul y))
  | .divide => if y.isZero then .error .zeroDivision else .ok (.double (x.divide y))
  | .modulo => if y.isZero then .error .zeroDivision else .ok (.double (x.modulo y))
  | .power => do
    match ← x.power? y with
    | some d => return .double d
    | none => return .complexDouble (← (ComplexDouble.ofDouble x).power (.ofDouble y))
  | .matrixTimes => .error .kindMismatch

/-- An operator on two complex numbers of doubles; they have no remainders. -/
def complexDoubles (o : Operator) (z w : ComplexDouble) : Outcome ComplexDouble :=
  match o with
  | .plus => .ok (z.add w)
  | .minus => .ok (z.sub w)
  | .times => .ok (z.mul w)
  | .divide => z.divide w
  | .power => z.power w
  | .modulo => .error .kindMismatch
  | .matrixTimes => .error .kindMismatch

/-- An operator on two decimal numbers. -/
def decimals (o : Operator) (x y : Decimal) : Outcome Decimal :=
  match o with
  | .plus => x.add y
  | .minus => x.sub y
  | .times => x.mul y
  | .divide => x.divide y
  | .modulo => x.modulo y
  | .power => x.power y
  | .matrixTimes => .error .kindMismatch

/-- An operator on two integers. Quotients are doubles, and so are powers with a negative exponent. -/
def integers (o : Operator) (i j : Int) : Outcome Datum :=
  match o with
  | .plus => .ok (.integer (i + j))
  | .minus => .ok (.integer (i - j))
  | .times => .ok (.integer (i * j))
  | .divide => if j = 0 then .error .zeroDivision else (Rational.toDouble (mkRat i 1 / mkRat j 1)).map .double
  | .modulo => if j = 0 then .error .zeroDivision else .ok (.integer (i.fmod j))
  | .power =>
    if 0 ≤ j then .ok (.integer (Power.onto (· * ·) 1 i j.toNat))
    else do doubles .power (← Rational.toDouble i) (← Rational.toDouble j)
  | .matrixTimes => .error .kindMismatch

/-- An operator on two plain numbers. Integers act as doubles beside doubles, and doubles as complex numbers beside
complex ones; decimal numbers combine with integers only. -/
def numbers (o : Operator) (a b : Datum) : Outcome Datum :=
  match a.plainInteger?, b.plainInteger?, a.asDecimal?, b.asDecimal? with
  | some i, some j, _, _ => integers o i j
  | _, _, some x, some y => (decimals o x y).map .decimal
  | _, _, _, _ =>
    if o = .matrixTimes then .error .kindMismatch
    else if a.isReal && b.isReal then do doubles o (← a.numberDouble) (← b.numberDouble)
    else if (a.isReal || a.isComplexDouble) && (b.isReal || b.isComplexDouble) && o != .modulo then do
      return .complexDouble (← complexDoubles o (← a.nearestComplex) (← b.nearestComplex))
    else .error .kindMismatch

/-! ## Texts and lists -/

/-- Items repeated; a negative number of times is none. -/
def repeated {α : Type} (times : Int) (items : List α) : List α := (List.replicate times.toNat items).flatten

/-- Items repeated as often as data says. A number that no machine word holds is an overflow; `tooLong` is the failure
for a length that none holds. -/
def repeatedBy {α : Type} (tooLong : Failure) (items : List α) (times : Datum) : Outcome (List α) :=
  match times.plainInteger? with
  | none => .error .kindMismatch
  | some n =>
    if n < -(Int.pow 2 63) || Int.pow 2 63 ≤ n then .error .overflow
    else if items.isEmpty then .ok []
    else if Int.pow 2 63 ≤ n * items.length then .error tooLong
    else if (heldBelow : Int) ≤ n * items.length then .error .outOfMemory
    else .ok (repeated n items)

/-- An operator on two plain data. -/
def plainResult (o : Operator) (a b : Datum) : Outcome Datum :=
  match o, a, b with
  | .plus, .text s, .text t => .ok (.text (s ++ t))
  | .plus, .list xs, .list ys => .ok (.list (xs ++ ys))
  | .plus, .tuple xs, .tuple ys => .ok (.tuple (xs ++ ys))
  | .times, .text s, b => (repeatedBy .overflow s b).map .text
  | .times, .list xs, b => (repeatedBy .outOfMemory xs b).map .list
  | .times, .tuple xs, b => (repeatedBy .outOfMemory xs b).map .tuple
  | .times, a, .text t => (repeatedBy .overflow t a).map .text
  | .times, a, .list ys => (repeatedBy .outOfMemory ys a).map .list
  | .times, a, .tuple ys => (repeatedBy .outOfMemory ys a).map .tuple
  | .modulo, .text s, b => (fill s b).map .text
  | o, a, b => numbers o a b

/-! ## Powers -/

/-- A value to the power of data. A matrix must be square before its exponent is looked at. -/
def raise (e : Datum) (base : Value) : Outcome Value :=
  match base with
  | .matrix m => if m.isSquare then do base.powerInt (← e.toExponent) else refuse (.notSquare "power" m.shape)
  | _ => do base.powerInt (← e.toExponent)

/-! ## Values -/

/-- The fault of an operator on a truth value and a value that shows the truth value as a word. -/
def spokenFault? (o : Operator) (a b : Datum) : Option Fault :=
  match o, a, b with
  | .plus, .value (.matrix m), .truth t => some (.addScalarToMatrix m.text (truthText t))
  | .plus, .truth t, .value (.matrix m) => some (.addMatrixToScalar (truthText t) m.text)
  | .minus, .value (.matrix m), .truth t => some (.subtractScalarFromMatrix m.text (truthText t))
  | .minus, .truth t, .value (.matrix m) => some (.subtractMatrixFromScalar (truthText t) m.text)
  | .divide, .truth t, .value (.matrix m) => some (.divideScalarByMatrix (truthText t) m.text)
  | .divide, .truth t, .value (.polynomial q) =>
    if !q.isConstant then some (.divideByPolynomial (truthText t) q.text)
    else
      match q.coefficient 0 with
      | .matrix m => some (.divideScalarByMatrix (truthText t) m.text)
      | .scalar _ => none
  | .modulo, .truth t, .value (.polynomial q) =>
    if q.isConstant then none else some (.moduloPolynomial (truthText t) q.text)
  | _, _, _ => none

/-- Whether every remainder with this data on one side is refused, and how. -/
def refusedModulo? : Datum → Option Fault
  | .value (.number (.complex _)) => some .complexModulo
  | .value (.matrix _) => some .matrixModulo
  | _ => none

/-- An operator on two data that are values, or integers beside values. -/
def valueResult (o : Operator) (v w : Value) : Outcome Datum :=
  match o, v, w with
  | .matrixTimes, .matrix a, .matrix b => do return .value (.matrix (← a.mul b))
  | .matrixTimes, _, _ => .error .kindMismatch
  | o, v, w => (o.apply v w).map .value

/-! ## Functions -/

/-- An operator on two functions. -/
def functionResult (o : Operator) (f g : NamedFunction) : Outcome Datum :=
  match o with
  | .plus => (f.add g).map .function
  | .minus => (f.sub g).map .function
  | .times => (f.mul g).map .function
  | .divide => (f.divide g).map .function
  | _ => .error .kindMismatch

/-! ## All data -/

/-- The result of an operator on data; a matrix product takes two matrices only. -/
def operate (o : Operator) (a b : Datum) : Outcome Datum :=
  match o, a, b with
  | .power, .function f, b => (f.power b.plain (raise b)).map .function
  | .power, .value v, b => (raise b v).map .value
  | .power, a, .value (.number (.rational q)) =>
    match a.plainInteger? with
    | some i => (Value.power (.rational i) (.rational q)).map .value
    | none => .error .kindMismatch
  | .power, _, .value _ => .error .kindMismatch
  | o, .function f, .function g => functionResult o f g
  | o, a, b =>
    match spokenFault? o a b, a.operand?, b.operand? with
    | some f, _, _ => refuse f
    | none, some v, some w => if isValue a || isValue b then valueResult o v w else plainResult o a b
    | none, _, _ =>
      match o, a, refusedModulo? a, refusedModulo? b with
      | .modulo, _, some f, _ => refuse f
      | .modulo, .text _, _, _ => plainResult o a b
      | .modulo, _, _, some f => refuse f
      | o, a, _, _ => plainResult o a b
where
  /-- Whether data is a value. -/
  isValue : Datum → Bool
    | .value _ => true
    | _ => false

/-- The result of an operator as expressions have it: the matrix product is the product of any two values, and a pair
that no rule covers is refused. -/
def operateToken (o : Operator) (mark : Text) (a b : Datum) : Outcome Datum :=
  match operate (if o = .matrixTimes then .times else o) a b with
  | .error .kindMismatch => refuse (.unsupported a.plain mark b.plain)
  | outcome => outcome

end Reckoner.Datum
