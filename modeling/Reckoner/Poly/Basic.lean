import Reckoner.Poly.Coeff
/-!
# Polynomials

A polynomial in one variable keeps its nonzero terms from the highest power down. Terms are gathered in lists with
descending powers, in which a sum may be zero; a polynomial drops the zeros.
-/

namespace Reckoner

/-- Powers with their coefficients. -/
abbrev Terms := List (Nat × Coeff)

namespace Terms

/-- Powers go down from one term to the next. -/
def Descending (ts : Terms) : Prop := ts.Pairwise fun s t => t.1 < s.1

/-- The terms with one more at its place; a term of the same power is replaced. -/
def insert (power : Nat) (c : Coeff) : Terms → Terms
  | [] => [(power, c)]
  | t :: rest =>
    if t.1 < power then (power, c) :: t :: rest
    else if t.1 = power then (power, c) :: rest
    else t :: insert power c rest

/-- The terms with a coefficient added at a power. -/
def add (power : Nat) (c : Coeff) : Terms → Outcome Terms
  | [] => .ok [(power, c)]
  | t :: rest =>
    if t.1 < power then .ok ((power, c) :: t :: rest)
    else if t.1 = power then do return (power, ← t.2.add c) :: rest
    else do return t :: (← add power c rest)

/-- The terms in descending order. -/
def sorted (ts : Terms) : Terms := ts.foldr (fun t rest => insert t.1 t.2 rest) []

/-- The nonzero terms in descending order. -/
def normal (ts : Terms) : Terms := (sorted ts).filter fun t => !t.2.isZero

theorem mem_insert {power : Nat} {c : Coeff} {ts : Terms} {t : Nat × Coeff} (h : t ∈ insert power c ts) :
    t = (power, c) ∨ t ∈ ts := by
  induction ts with
  | nil => simpa [insert] using h
  | cons s rest ih =>
    simp only [insert] at h
    split at h
    · simpa using h
    · split at h
      · rcases List.mem_cons.1 h with rfl | h
        · exact .inl rfl
        · exact .inr (List.mem_cons_of_mem _ h)
      · rcases List.mem_cons.1 h with rfl | h
        · exact .inr List.mem_cons_self
        · exact (ih h).imp id (List.mem_cons_of_mem _)

theorem descending_insert {ts : Terms} (h : Descending ts) (power : Nat) (c : Coeff) :
    Descending (insert power c ts) := by
  induction ts with
  | nil => simp [insert, Descending]
  | cons s rest ih =>
    obtain ⟨below, tail⟩ := List.pairwise_cons.1 h
    simp only [insert]
    split
    next high =>
      refine List.pairwise_cons.2 ⟨fun t ht => ?_, h⟩
      rcases List.mem_cons.1 ht with rfl | ht
      · exact high
      · exact Nat.lt_trans (below t ht) high
    next =>
      split
      next same => exact List.pairwise_cons.2 ⟨fun t ht => same ▸ below t ht, tail⟩
      next =>
        refine List.pairwise_cons.2 ⟨fun t ht => ?_, ih tail⟩
        rcases mem_insert ht with rfl | ht
        · show power < s.1
          omega
        · exact below t ht

theorem descending_sorted (ts : Terms) : Descending (sorted ts) := by
  induction ts with
  | nil => simp [sorted, Descending]
  | cons t rest ih => exact descending_insert ih t.1 t.2

theorem descending_normal (ts : Terms) : Descending (normal ts) := (descending_sorted ts).filter _

theorem nonzero_of_mem_normal {ts : Terms} {t : Nat × Coeff} (h : t ∈ normal ts) : t.2.isZero = false := by
  simpa using (List.mem_filter.1 h).2

end Terms

/-- A polynomial: the name of its variable, and its nonzero terms from the highest power down. -/
structure Poly where
  var : Text
  terms : Terms
  descending : terms.Descending
  nonzero : ∀ t ∈ terms, t.2.isZero = false
  deriving DecidableEq

namespace Poly

/-! ## Building and looking -/

/-- The polynomial with the given terms. -/
def ofTerms (var : Text) (ts : Terms) : Poly :=
  ⟨var, ts.normal, Terms.descending_normal ts, fun _ h => Terms.nonzero_of_mem_normal h⟩

/-- A constant as a polynomial. -/
def constant (var : Text) (c : Coeff) : Poly := ofTerms var [(0, c)]

/-- The polynomial that is its own variable. -/
def identity (var : Text) : Poly := ofTerms var [(1, Coeff.ofRat 1)]

/-- The highest power; zero for the zero polynomial. -/
def degree (p : Poly) : Nat := (p.terms.head?.map (·.1)).getD 0

/-- Whether there is no term. -/
def isZero (p : Poly) : Bool := p.terms.isEmpty

/-- Whether the variable does not occur. -/
def isConstant (p : Poly) : Bool := p.degree == 0

/-- The coefficient at a power. -/
def coefficient (p : Poly) (power : Nat) : Coeff := (p.terms.lookup power).getD (Coeff.ofRat 0)

/-! ## Text -/

/-- A power of the variable; the power zero is left out. -/
def monomialText (var : Text) (power : Nat) : Text :=
  if power = 0 then [] else if power = 1 then var else var ++ '^' :: Text.numeral power

/-- Whether a minus sign stands before a coefficient, and the text after the sign. The text is empty for a one that
can be left out. -/
def coefficientText (unitAllowed : Bool) : Coeff → Bool × Text
  | .scalar z =>
    if z.im = 0 then
      let size := Rational.abs z.re
      (decide (z.re < 0), if unitAllowed && size == 1 then [] else Rational.text size)
    else if z.re = 0 then (decide (z.im < 0), Gaussian.text ⟨0, Rational.abs z.im⟩)
    else (false, '(' :: z.text ++ [')'])
  | .matrix m => (false, m.text)

/-- Whether a minus sign stands before a term, and the text after the sign. -/
def termText (var : Text) (t : Nat × Coeff) : Bool × Text :=
  let monomial := monomialText var t.1
  let (negative, size) := coefficientText (!monomial.isEmpty) t.2
  (negative,
    if monomial.isEmpty then size
    else if size.isEmpty then monomial
    else size ++ ' ' :: '*' :: ' ' :: monomial)

/-- Terms that follow others, each after its sign. -/
def laterTerms (var : Text) (ts : Terms) : Text :=
  ts.flatMap fun t =>
    let (negative, body) := termText var t
    ' ' :: (if negative then '-' else '+') :: ' ' :: body

/-- The terms from the highest power down; the zero polynomial is a zero. -/
def text (p : Poly) : Text :=
  match p.terms with
  | [] => ['0']
  | t :: rest =>
    let (negative, body) := termText p.var t
    (if negative then '-' :: body else body) ++ laterTerms p.var rest

/-- Whether the numerals of the text are short enough to be written. -/
def isWritable (p : Poly) : Bool := p.terms.all fun t => Text.isWritable t.1 && t.2.isWritable

/-! ## Arithmetic -/

/-- The variable of a result: constants take the variable of the other operand. -/
def sharedVar (p q : Poly) : Outcome Text :=
  if p.var = q.var ∨ q.isConstant then .ok p.var
  else if p.isConstant then .ok q.var
  else refuse (.mixedVariables p.var q.var)

/-- The sum. -/
def add (p q : Poly) : Outcome Poly := do
  let terms ← q.terms.foldlM (fun sum t => Terms.add t.1 t.2 sum) p.terms
  return ofTerms (← sharedVar p q) terms

/-- The polynomial with every coefficient negated. -/
def neg (p : Poly) : Poly := ofTerms p.var (p.terms.map fun t => (t.1, t.2.neg))

/-- The terms with the product of one term and each of others added. -/
def addProducts (sum : Terms) (s : Nat × Coeff) (ts : Terms) : Outcome Terms :=
  ts.foldlM (fun sum t => do Terms.add (s.1 + t.1) (← s.2.mul t.2) sum) sum

/-- The product. -/
def mul (p q : Poly) : Outcome Poly := do
  let terms ← p.terms.foldlM (fun sum s => addProducts sum s q.terms) []
  return ofTerms (← sharedVar p q) terms

/-- `accumulated * base ^ n`, by squaring. -/
def powerOnto (accumulated base : Poly) (n : Nat) : Outcome Poly :=
  if _h : n = 0 then .ok accumulated
  else do
    let accumulated ← if n % 2 = 1 then accumulated.mul base else pure accumulated
    let base ← if n / 2 = 0 then pure base else base.mul base
    powerOnto accumulated base (n / 2)
termination_by n
decreasing_by omega

/-- A power with a natural exponent. -/
def power (p : Poly) (n : Nat) : Outcome Poly := powerOnto (constant p.var (Coeff.ofRat 1)) p n

/-- A function applied to every coefficient, from the highest power down. -/
def mapCoeffs (f : Coeff → Outcome Coeff) (p : Poly) : Outcome Poly := do
  let terms ← p.terms.mapM fun t => do return (t.1, ← f t.2)
  return ofTerms p.var terms

/-! ## Calculus -/

/-- The derivative. -/
def derivative (p : Poly) : Poly :=
  ofTerms p.var (p.terms.filterMap fun t => if t.1 = 0 then none else some (t.1 - 1, t.2.scale t.1))

/-- The antiderivative without a constant. -/
def integral (p : Poly) : Poly :=
  ofTerms p.var (p.terms.map fun t => (t.1 + 1, t.2.scale (1 / ((t.1 + 1 : Nat) : Rat))))

end Poly

end Reckoner
