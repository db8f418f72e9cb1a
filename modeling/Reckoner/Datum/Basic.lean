import Reckoner.Decimal.Arithmetic
import Reckoner.Double.Literal
import Reckoner.NamedFunction.Literal
import Reckoner.Text.Quoted
/-!
# Loosely typed data

What a caller may hand to the calculator where it expects a value: plain numbers of several kinds, text, lists, and
values and functions themselves. Here are the names and the texts of such data, as messages show them.
-/

namespace Reckoner

/-- Data of any kind. -/
inductive Datum where
  | nothing
  | truth (b : Bool)
  | integer (i : Int)
  | double (d : Double)
  | decimal (d : Decimal)
  | complexDouble (z : ComplexDouble)
  | text (t : Text)
  | list (items : List Datum)
  | tuple (items : List Datum)
  | object
  | value (v : Value)
  | function (f : NamedFunction)
  /-- What stands for all real numbers among solutions. -/
  | allReals
  deriving Inhabited

namespace Datum

/-- A rational number as data. -/
def rational (q : Rat) : Datum := .value (.rational q)

/-- A natural number as data. -/
def count (n : Nat) : Datum := .integer n

/-- The length below which texts and lists are held. -/
def heldBelow : Nat := Nat.pow 2 28

/-- The name of the type of data. -/
def typeName : Datum → Text
  | .nothing => "NoneType".toList
  | .truth _ => "bool".toList
  | .integer _ => "int".toList
  | .double _ => "float".toList
  | .decimal _ => "Decimal".toList
  | .complexDouble .. => "complex".toList
  | .text _ => "str".toList
  | .list _ => "list".toList
  | .tuple _ => "tuple".toList
  | .object => "dict".toList
  | .value v => v.typeName.toList
  | .function _ => "Function".toList
  | .allReals => "AllRealNumbers".toList

/-! ## Text -/

/-- The text of a truth value. -/
def truthText (b : Bool) : Text := if b then "True".toList else "False".toList

/-- The text of a pair of doubles as a complex number; a real part that is zero is left out. -/
def complexDoubleText (z : ComplexDouble) : Text :=
  let imaginary := z.im.textWith [] ++ ['j']
  if z.re = .zero false then imaginary
  else
    let sign : Text := if imaginary.head? = some '-' then [] else ['+']
    '(' :: z.re.textWith [] ++ sign ++ imaginary ++ [')']

mutual

/-- The text of data that stands inside other data. -/
def nested : Datum → Text
  | .nothing => "None".toList
  | .truth b => truthText b
  | .integer i => Text.signedNumeral i
  | .double d => d.text
  | .decimal d => "Decimal('".toList ++ d.text ++ ['\'', ')']
  | .complexDouble z => complexDoubleText z
  | .text t => Text.quoted t
  | .list items => '[' :: Text.join [',', ' '] (nestedItems items) ++ [']']
  | .tuple [item] => '(' :: nested item ++ [',', ')']
  | .tuple items => '(' :: Text.join [',', ' '] (nestedItems items) ++ [')']
  | .object => ['{', '}']
  | .value v => v.describe
  | .function f => f.describe
  | .allReals => "ALL_REAL_NUMBERS".toList

/-- The texts of the items of a list. -/
def nestedItems : List Datum → List Text
  | [] => []
  | d :: rest => nested d :: nestedItems rest

end

/-- The text of data: a text, a decimal, a value and a function stand for themselves. -/
def plain : Datum → Text
  | .text t => t
  | .decimal d => d.text
  | .value v => v.text
  | .function f => f.text
  | .allReals => "All real numbers".toList
  | d => nested d

/-! ## Empty data -/

/-- Whether data counts as nothing: null, false, zero, and what is empty. -/
def isNothing : Datum → Bool
  | .nothing => true
  | .truth b => !b
  | .integer i => i == 0
  | .double d => d.isZero
  | .decimal d => d.isZero
  | .complexDouble z => z.isZero
  | .text t => t.isEmpty
  | .list items => items.isEmpty
  | .tuple items => items.isEmpty
  | .object => true
  | _ => false

end Datum

end Reckoner
