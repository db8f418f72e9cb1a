import Reckoner.Value.Basic
/-!
# Roots

The solutions of `p = 0` for a polynomial of degree at most two. Linear equations may have complex coefficients;
quadratic ones must be rational, and their roots are exact where the discriminant is a square up to its sign.
-/

namespace Reckoner

/-- The solutions of an equation: every number, or some. -/
inductive Solutions where
  | everything
  | values (roots : List Number)
  deriving DecidableEq, Repr

namespace Poly

/-- The coefficient at a power, if it is a number. -/
def scalarAt? (p : Poly) (power : Nat) : Option Gaussian :=
  match p.coefficient power with
  | .scalar z => some z
  | .matrix _ => none

/-- The root of `a * x + b`. -/
def linearRoot (a b : Gaussian) : Number := Number.ofGaussian (-b / a)

/-- A quantity that a root of the discriminant is part of: exact if that root is, else rounded. -/
def settle (places : Nat) (exact : Bool) (q : Rat) : Outcome Rat := if exact then .ok q else Rational.round places q

/-- Two numbers in ascending order. -/
def ascending (x y : Rat) : List Number := if y < x then [.rational y, .rational x] else [.rational x, .rational y]

/-- The roots of `a * x ^ 2 + b * x + c`, given `places` decimals for a root that is not rational: real ones in
ascending order, others as a conjugate pair. -/
def quadraticRoots (places : Nat) (a b c : Rat) : Outcome (List Number) :=
  let discriminant := b * b - 4 * a * c
  let size := Rational.abs discriminant
  if discriminant = 0 then .ok [.rational (-b / (2 * a))]
  else do
    let root ← Rational.sqrt places size
    let settle := settle places (root * root == size)
    if 0 < discriminant then
      return ascending (← settle ((-b - root) / (2 * a))) (← settle ((-b + root) / (2 * a)))
    else
      let im ← settle (root / (2 * a))
      return [.complex ⟨-b / (2 * a), im⟩, .complex ⟨-b / (2 * a), -im⟩]

/-- The solutions of `p = 0`. -/
def solve (places : Nat) (p : Poly) : Outcome Solutions :=
  match p.degree with
  | 0 => .ok (if p.isZero then .everything else .values [])
  | n + 1 =>
    if 2 < n + 1 then refuse (.degreeTooHigh (n + 1))
    else
      match p.scalarAt? 2, p.scalarAt? 1, p.scalarAt? 0 with
      | some a, some b, some c =>
        if n = 0 then .ok (.values [linearRoot b c])
        else if a.im = 0 ∧ b.im = 0 ∧ c.im = 0 then (quadraticRoots places a.re b.re c.re).map .values
        else refuse (.nonRationalQuadratic p.text)
      | _, _, _ => refuse (.nonScalarEquation p.text)

end Poly

end Reckoner
