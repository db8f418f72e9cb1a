import Reckoner.Proofs.Expression.Grammar
/-!
# Operators outside parentheses

The operators that stand inside no parentheses tell at which level of the grammar an expression is: a sum without signs
between its summands is a product, and a product without a sign is a unary phrase.
-/

namespace Reckoner

/-- The operators among tokens that stand inside no parentheses, where `depth` are open before them. -/
def Token.outside (depth : Nat) : List Token → List Operator
  | [] => []
  | t :: rest =>
    match t.kind with
    | .opening => outside (depth + 1) rest
    | .closing => outside (depth - 1) rest
    | .operator o => if depth = 0 then o :: outside depth rest else outside depth rest
    | _ => outside depth rest

namespace Expression

open Token

variable {l : Level} {e : Expression} {ts : List Token}

namespace Derives

/-- The tokens of an expression close the parentheses that they open. -/
theorem outside_append (h : Derives l e ts) (depth : Nat) (rest : List Token) :
    outside depth (ts ++ rest) = outside depth ts ++ outside depth rest := by
  induction h generalizing depth rest with
  | @sum o m _ _ ts us _ _ _ ihl ihr | @product o m _ _ ts us _ _ _ ihl ihr | @power m _ _ ts us _ _ ihl ihr =>
    rw [List.append_assoc, ihl, ihl, List.append_assoc, List.cons_append]
    simp only [outside, Mark.token_kind, ihr]
    split <;> simp
  | ofProduct _ ih | ofUnary _ ih | ofPower _ ih | ofAtom _ ih => exact ih depth rest
  | negate _ ih => exact ih depth rest
  | operand => rfl
  | group _ ih | call _ ih => simp [outside, ih]

theorem outside_binary {o : Operator} {m : Mark} {us : List Token} (h : Derives l e ts) :
    outside 0 (ts ++ m.token (.operator o) :: us) = outside 0 ts ++ o :: outside 0 us := by
  rw [h.outside_append]
  rfl

theorem product_of_outside (h : Derives .sum e ts) (none : ∀ o ∈ outside 0 ts, o.additive = false) :
    Derives .product e ts := by
  cases h with
  | @sum o m _ _ ts us additive left _ =>
    rw [none o (by simp [left.outside_binary])] at additive
    cases additive
  | ofProduct inner => exact inner

theorem unary_of_outside (h : Derives .product e ts) (none : ∀ o ∈ outside 0 ts, o.multiplicative = false) :
    Derives .unary e ts := by
  cases h with
  | @product o m _ _ ts us multiplicative left _ =>
    rw [none o (by simp [left.outside_binary])] at multiplicative
    cases multiplicative
  | ofUnary inner => exact inner

end Derives

end Expression

end Reckoner
