import Reckoner.Proofs.Expression.Coefficients
import Reckoner.Proofs.Expression.Extension
/-!
# Products with one power of the variable

The products that terms of polynomials are: a factor without names, a power of the variable, and a factor or divisor after
it. A minus sign in front belongs to the first factor only, but the whole product changes its sign with it (`Signed`).
-/

namespace Reckoner.Poly

open Expression Postfix

/-- The scope in which a name stands for the polynomial that is this name. -/
def variableScope (x : Text) : Scope := { bindings := [(x, .polynomial (identity x))] }

/-- The meaning of tokens in that scope. -/
def variableMeaning (x source : Text) : Interpretation Value :=
  (variableScope x).meaning (matrixValue (variableScope x)) source

/-- The meaning of tokens in the empty scope. -/
def closedMeaning (source : Text) : Interpretation Value := ({} : Scope).meaning (matrixValue {}) source

variable {x source : Text} {e f : Expression} {us vs : List Token} {v w : Value} {b c d : Coeff} {n : Nat} {o : Operator}

/-! ## Expressions without names -/

/-- An expression without names is worth the same where the variable is known. -/
theorem variableMeaning_of_closed (h : e.evalWith (closedMeaning source) = .ok v) (x source' : Text) :
    e.evalWith (variableMeaning x source') = .ok v :=
  evalWith_extends (variableScope x).extends_empty
    (fun _ _ => matrixValue_extends (variableScope x).extends_empty) h source'

/-- An expression without names is worth a number or a matrix. -/
theorem exists_toCoeff?_of_closed (h : e.evalWith (closedMeaning source) = .ok v) : ∃ c, v.toCoeff? = some c :=
  exists_toCoeff?_of_evalWith (fun _ _ found => by cases found) h

/-! ## Products with a sign -/

/-- Tokens that stand for a product. Its value has to do with the coefficient `c` as `R` says, and with a minus sign in front
it has to do so with the opposite. -/
structure Signed (x : Text) (R : Coeff → Value → Prop) (c : Coeff) (us : List Token) : Prop where
  plain : ∃ e, Derives .product e us ∧ ∀ source v, e.evalWith (variableMeaning x source) = .ok v → R c v
  negated : ∀ m : Mark, ∃ e, Derives .product e (m.token .negate :: us) ∧
    ∀ source v, e.evalWith (variableMeaning x source) = .ok v → R c.neg v

/-- The value is the coefficient. -/
def IsCoeff (c : Coeff) (v : Value) : Prop := v.toCoeff? = some c

/-- The value is the coefficient times a power of the variable. -/
def IsMonomial (x : Text) (n : Nat) (c : Coeff) (v : Value) : Prop := v = .polynomial (monomial x n c)

namespace Signed

variable {R R' : Coeff → Value → Prop}

theorem mono (h : Signed x R c us) (weaker : ∀ c v, R c v → R' c v) : Signed x R' c us where
  plain := h.plain.imp fun _ ⟨derived, value⟩ => ⟨derived, fun source v run => weaker _ _ (value source v run)⟩
  negated m := (h.negated m).imp fun _ ⟨derived, value⟩ => ⟨derived, fun source v run => weaker _ _ (value source v run)⟩

/-- A factor by itself. -/
theorem of_unary (derived : Derives .unary e us)
    (value : ∀ source v, e.evalWith (variableMeaning x source) = .ok v → R c v ∧ R c.neg v.neg) : Signed x R c us where
  plain := ⟨e, .ofUnary derived, fun source v run => (value source v run).1⟩
  negated m := by
    refine ⟨.negate m e, .ofUnary (.negate derived), fun source v run => ?_⟩
    obtain ⟨w, inner, run⟩ := Outcome.bind_eq_ok.1 run
    cases run
    exact (value source w inner).2

/-- One more factor or divisor. -/
theorem snoc (h : Signed x R c us) (multiplicative : o.multiplicative = true) (derived : Derives .unary f vs) (m : Mark)
    (value : ∀ source w, f.evalWith (variableMeaning x source) = .ok w → ∀ v r, o.apply v w = .ok r →
      (R c v → R' d r) ∧ (R c.neg v → R' d.neg r)) : Signed x R' d (us ++ m.token (.operator o) :: vs) where
  plain := by
    obtain ⟨e, left, factor⟩ := h.plain
    refine ⟨.binary o m e f, .product multiplicative left derived, fun source r run => ?_⟩
    obtain ⟨v, first, run⟩ := Outcome.bind_eq_ok.1 run
    obtain ⟨w, second, run⟩ := Outcome.bind_eq_ok.1 run
    exact (value source w second v r run).1 (factor source v first)
  negated m' := by
    obtain ⟨e, left, factor⟩ := h.negated m'
    refine ⟨.binary o m e f, by simpa using Derives.product multiplicative left derived, fun source r run => ?_⟩
    obtain ⟨v, first, run⟩ := Outcome.bind_eq_ok.1 run
    obtain ⟨w, second, run⟩ := Outcome.bind_eq_ok.1 run
    exact (value source w second v r run).2 (factor source v first)

/-! ### Without the variable -/

/-- A product without names is worth its coefficient. -/
theorem of_closed (derived : Derives .product e us) (h : e.evalWith (closedMeaning source) = .ok v)
    (hv : v.toCoeff? = some c) : Signed x IsCoeff c us := by
  generalize level : Level.product = l at derived
  induction derived generalizing v c with
  | @product o m e f ts us multiplicative left right ihl _ =>
    obtain ⟨w, first, h⟩ := Outcome.bind_eq_ok.1 h
    obtain ⟨u, second, h⟩ := Outcome.bind_eq_ok.1 h
    obtain ⟨a, hw⟩ := exists_toCoeff?_of_closed first
    obtain ⟨b, hu⟩ := exists_toCoeff?_of_closed second
    have product : o.onCoeffs a b = .ok c := by
      obtain ⟨c', result, product⟩ := Value.toCoeff?_apply multiplicative hw hu h
      cases hv.symm.trans result
      exact product
    refine (ihl first hw rfl).snoc multiplicative right m fun source u' value v r run => ?_
    cases (variableMeaning_of_closed second x source).symm.trans value
    have results : ∀ {a' c'}, o.onCoeffs a' b = .ok c' → IsCoeff a' v → IsCoeff c' r := by
      intro a' c' product coeff
      obtain ⟨c'', result, product'⟩ := Value.toCoeff?_apply multiplicative coeff hu run
      cases product.symm.trans product'
      exact result
    exact ⟨results product, results (Operator.onCoeffs_neg product)⟩
  | ofUnary inner =>
    refine of_unary inner fun source w value => ?_
    cases (variableMeaning_of_closed h x source).symm.trans value
    exact ⟨hv, Value.toCoeff?_neg hv⟩
  | _ => cases level

/-! ### With the variable -/

/-- A power of the variable by itself. -/
theorem of_variable (derived : Derives .unary f us)
    (value : ∀ source v, f.evalWith (variableMeaning x source) = .ok v → IsMonomial x n (.ofRat 1) v) :
    Signed x (IsMonomial x n) (.ofRat 1) us := by
  refine of_unary derived fun source v run => ?_
  obtain rfl := value source v run
  exact ⟨rfl, Value.neg_monomial x n _⟩

/-- A power of the variable after a factor. -/
theorem variable_after (h : Signed x IsCoeff c us) (derived : Derives .unary f vs)
    (value : ∀ source v, f.evalWith (variableMeaning x source) = .ok v → IsMonomial x n (.ofRat 1) v) (m : Mark) :
    Signed x (IsMonomial x n) c (us ++ m.token (.operator .times) :: vs) := by
  refine h.snoc rfl derived m fun source w run v r product => ?_
  obtain rfl := value source w run
  exact ⟨fun hv => Value.mul_monomial hv product, fun hv => Value.mul_monomial hv product⟩

/-- A factor or divisor after a power of the variable. -/
theorem apply_closed (h : Signed x (IsMonomial x n) c us) (multiplicative : o.multiplicative = true)
    (noRemainder : o ≠ .modulo) (derived : Derives .unary f vs) (closed : f.evalWith (closedMeaning source) = .ok w)
    (hw : w.toCoeff? = some b) (result : o.onCoeffs c b = .ok d) (m : Mark) :
    Signed x (IsMonomial x n) d (us ++ m.token (.operator o) :: vs) := by
  refine h.snoc multiplicative derived m fun source' w' value v r run => ?_
  cases (variableMeaning_of_closed closed x source').symm.trans value
  constructor
  · rintro rfl
    exact Value.monomial_apply multiplicative noRemainder hw result run
  · rintro rfl
    exact Value.monomial_apply multiplicative noRemainder hw (Operator.onCoeffs_neg result) run

/-- A whole product after a power of the variable: it may be multiplied factor by factor, unless it has a remainder. -/
theorem times_closed (h : Signed x (IsMonomial x n) c us) (derived : Derives .product e vs)
    (noRemainder : .modulo ∉ Token.outside 0 vs) (closed : e.evalWith (closedMeaning source) = .ok w)
    (hw : w.toCoeff? = some b) (result : c.mul b = .ok d) (m : Mark) :
    Signed x (IsMonomial x n) d (us ++ m.token (.operator .times) :: vs) := by
  generalize level : Level.product = l at derived
  induction derived generalizing w b d with
  | @product o m' e f ts us' multiplicative left right ihl _ =>
    rw [left.outside_binary, List.mem_append, List.mem_cons, not_or, not_or] at noRemainder
    obtain ⟨w₁, first, closed⟩ := Outcome.bind_eq_ok.1 closed
    obtain ⟨w₂, second, closed⟩ := Outcome.bind_eq_ok.1 closed
    obtain ⟨b₁, hw₁⟩ := exists_toCoeff?_of_closed first
    obtain ⟨b₂, hw₂⟩ := exists_toCoeff?_of_closed second
    obtain ⟨b', value, product⟩ := Value.toCoeff?_apply multiplicative hw₁ hw₂ closed
    cases hw.symm.trans value
    obtain ⟨d', before, after⟩ := Operator.onCoeffs_of_mul (Ne.symm noRemainder.2.1) product result
    have prefixed := ihl noRemainder.1 first hw₁ before rfl
    simpa using prefixed.apply_closed multiplicative (Ne.symm noRemainder.2.1) right second hw₂ after m'
  | ofUnary inner => exact h.apply_closed (o := .times) rfl nofun inner closed hw result m
  | _ => cases level

end Signed

end Reckoner.Poly
