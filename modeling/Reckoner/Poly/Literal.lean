import Reckoner.Postfix.Evaluation
/-!
# Polynomial literals

A polynomial is written as terms with signs between them. A term is a coefficient, or a power of the variable with
factors before and after it; coefficients and factors are expressions without names. Spaces are ignored.
-/

namespace Reckoner.Poly

/-! ## Terms -/

/-- A term as it is written: its sign and what follows the sign. -/
abbrev SignedTerm := Char × Text

/-- Whether a sign after this character belongs to an operand and not between two terms. -/
def holdsSign (c : Char) : Bool := ['^', '*', '/', '+', '-', '('].contains c

/-- The depth of brackets after a character. -/
def depthAfter (depth : Int) (c : Char) : Int :=
  if c = '(' ∨ c = '[' then depth + 1 else if c = ')' ∨ c = ']' then depth - 1 else depth

/-- What is left of a term that stands inside `depth` brackets and has `last` as its last character so far, and the
terms after it. -/
def cutTerms (depth : Int) (last : Char) : Text → Text × List SignedTerm
  | [] => ([], [])
  | c :: rest =>
    let (body, terms) := cutTerms (depthAfter depth c) c rest
    if (c = '+' ∨ c = '-') ∧ depth = 0 ∧ !holdsSign last then ([], (c, body) :: terms) else (c :: body, terms)

/-- The terms of a literal; the sign of the first one may be missing. -/
def signedTerms (t : Text) : List SignedTerm :=
  let (sign, rest) : Char × Text :=
    match t with
    | c :: rest => if c = '+' ∨ c = '-' then (c, rest) else ('+', t)
    | [] => ('+', [])
  let (body, terms) := cutTerms 0 sign rest
  (sign, body) :: terms

/-! ## Reading a term -/

/-- The value of an expression without names. -/
def closedValue (t : Text) : Outcome Value := ({} : Scope).eval t

/-- The exponent after a variable, and what follows it; without one the exponent is one. -/
def readExponent (t : Text) : Nat × Text :=
  match t with
  | '^' :: rest =>
    let (digits, after) := Text.spanDigits rest
    if digits.isEmpty then (1, t) else (Text.numeralValue digits, after)
  | _ => (1, t)

/-- The value of the factor before a variable; without one it is one. -/
def readBefore (t : Text) : Outcome Value := if t.isEmpty then .ok (Value.rational 1) else closedValue t

/-- A factor or divisor after a power of the variable. -/
def readAfter (bad : Fault) (v : Value) : Text → Outcome Value
  | [] => .ok v
  | c :: rest =>
    if rest.isEmpty then refuse bad
    else if c = '*' then do v.mul (← closedValue rest)
    else if c = '/' then do v.divide (← closedValue rest)
    else refuse bad

/-- The power and the coefficient of a term, without its sign. The variable may occur once. -/
def readBody (bad : Fault) (var body : Text) : Outcome (Nat × Value) :=
  match Text.cut? var body with
  | none => do return (0, ← closedValue body)
  | some (before, after) =>
    -- a star may stand between the factor and the variable
    let factor := (Text.chop? '*' before).getD before
    if factor.getLast? = some '/' || Text.has var after then refuse bad
    else do
      let v ← readBefore factor
      let (power, after) := readExponent after
      return (power, ← readAfter bad v after)

/-- The power and the coefficient of a term. -/
def readTerm (var source : Text) (term : SignedTerm) : Outcome (Nat × Coeff) :=
  let (sign, body) := term
  let bad := Fault.badTerm (sign :: body) source
  if body.isEmpty then refuse (.danglingSign source)
  else do
    let (power, v) ← readBody bad var body
    match v.toCoeff? with
    | none => refuse bad
    | some c => return (power, if sign = '-' then c.neg else c)

/-! ## Reading a polynomial -/

/-- The variable of a literal without blanks: its one letter other than the imaginary unit. -/
def inferVar (source t : Text) : Outcome Text :=
  match Text.distinct ((t.filter fun c => CharClass.isLetter c && Text.lower [c] != ['i']).map fun c => [c]) with
  | [] => .ok ['x']
  | [var] => .ok var
  | _ => refuse (.severalVariables source)

/-- A polynomial in `var?`, or in the one letter that occurs. -/
def parse (t : Text) (var? : Option Text) : Outcome Poly := do
  let cleaned := Text.withoutSpaces t
  if cleaned.isEmpty then refuse .emptyPolynomial
  else
    let var ← match var? with
      | some var => pure var
      | none => inferVar t cleaned
    let terms ← (signedTerms cleaned).foldlM
      (fun sum term => do
        let (power, c) ← readTerm var t term
        Terms.add power c sum) []
    return ofTerms var terms

end Reckoner.Poly
