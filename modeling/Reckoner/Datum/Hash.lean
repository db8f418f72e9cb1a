import Reckoner.Datum.Extent
/-!
# Hashes

Under which hash data is kept where it is looked up. How plain numbers, texts and collections are hashed is given; the hash
of values, functions and other data is put together from these. A number in a simpler kind, or a constant polynomial, is
to have the hash of what it equals.
-/

namespace Reckoner

/-- Ways to hash plain data. -/
structure Hashing where
  /-- The hash of a plain real number. -/
  real : Extent → Int
  /-- The hash of a text. -/
  text : Text → Int
  /-- The hash of what has no parts. -/
  single : Datum → Int
  /-- The hash of a list from the hashes of its items. -/
  sequence : List Int → Int
  /-- The hash of a collection without an order from the hashes of its items. -/
  collection : List Int → Int

namespace Hashing

variable (H : Hashing)

/-! ## Values -/

/-- The hash of an integer. -/
def integer (i : Int) : Int := H.real (.ofInt i)

/-- The hash of a rational number: that of the integer, if it is one. -/
def rational (q : Rat) : Int :=
  if q.den = 1 then H.integer q.num else H.sequence [H.integer q.num, H.integer q.den]

/-- The hash of a complex number: that of its real part, if nothing else is left. -/
def gaussian (z : Gaussian) : Int :=
  if z.im = 0 then H.rational z.re else H.sequence [H.rational z.re, H.rational z.im]

/-- The hash of a number of either kind. -/
def number : Number → Int
  | .rational q => H.rational q
  | .complex z => H.gaussian z

/-- The hash of a matrix: that of its rows. -/
def matrix (m : Mat) : Int := H.sequence (m.rows.map fun row => H.sequence (row.map H.gaussian))

/-- The hash of a coefficient. -/
def coefficient : Coeff → Int
  | .scalar z => H.gaussian z
  | .matrix m => H.matrix m

/-- The hash of a polynomial: that of the coefficient of a constant one, else that of its variable and its terms. -/
def polynomial (p : Poly) : Int :=
  if p.isConstant then H.coefficient (p.coefficient 0)
  else
    let terms := p.terms.map fun (power, c) => H.sequence [H.integer power, H.coefficient c]
    H.sequence [H.text p.var, H.collection terms]

/-- The hash of a value. -/
def value : Value → Int
  | .number x => H.number x
  | .matrix m => H.matrix m
  | .polynomial p => H.polynomial p

/-- The hash of a function. -/
def function (f : NamedFunction) : Int := H.sequence [H.text f.name, H.text f.parameter, H.value f.body]

/-! ## Data -/

mutual

/-- The hash of data. Lists and objects have none, and are not looked up. -/
def datum : Datum → Int
  | .truth b => H.integer (if b then 1 else 0)
  | .integer i => H.integer i
  | .double d => H.real (.ofDouble d)
  | .decimal d => H.real (.ofDecimal d)
  | .complexDouble z =>
    if z.im.isZero then H.real (.ofDouble z.re) else H.sequence [H.real (.ofDouble z.re), H.real (.ofDouble z.im)]
  | .text t => H.text t
  | .tuple items => H.sequence (data items)
  | .value v => H.value v
  | .function f => H.function f
  | d => H.single d

/-- The hashes of the items of a list. -/
def data : List Datum → List Int
  | [] => []
  | d :: rest => datum d :: data rest

end

/-! ## Residues -/

/-- The prime number modulo which plain numbers are hashed. -/
def modulus : Nat := Nat.pow 2 61 - 1

/-- A power modulo the prime. -/
def residuePower (base exponent : Nat) : Nat := Power.onto (fun x y => x * y % modulus) 1 (base % modulus) exponent

/-- The residue of a size: quotients are quotients of residues, so that equal sizes have one residue. -/
def residue (s : Extent.Size) : Nat :=
  let quotient := s.n * residuePower s.d (modulus - 2) % modulus
  quotient * residuePower 10 (s.power.emod (modulus - 1)).toNat % modulus

/-- The hashing of the calculator: plain real numbers by their residues, and the rest by what is put together. -/
def standard : Hashing where
  real
    | .finite negative size => if negative then -(residue size) else residue size
    | .infinite negative => if negative then -314159 else 314159
    | .undefined _ => 0
  text t := (t.foldl (fun h c => (1000003 * h + c.toNat) % modulus) 0 : Nat)
  single _ := 0
  sequence hs := hs.foldl (fun h item => (1000003 * h + item + 1) % modulus) 0
  collection hs := hs.foldl (fun h item => (h + item) % modulus) 0

end Hashing

end Reckoner
