/-!
# Powers by squaring

A power with a natural exponent takes a number of products that grows with the length of the exponent, not with the
exponent: powers of zero, one and minus one are found for any exponent. Main statement: if the product is associative,
`onto` multiplies by the base as often as the exponent says.
-/

namespace Reckoner.Power

variable {α : Type}

/-- `accumulated` multiplied by the `n`th power of `base`; the last square, which nothing needs, is not computed. -/
def onto (mul : α → α → α) (accumulated base : α) (n : Nat) : α :=
  if _h : n = 0 then accumulated
  else
    onto mul (if n % 2 = 1 then mul accumulated base else accumulated)
      (if n = 1 then base else mul base base) (n / 2)
termination_by n
decreasing_by omega

@[simp] theorem onto_zero (mul : α → α → α) (a b : α) : onto mul a b 0 = a := by rw [onto, dif_pos rfl]

/-- One more step may be taken first or last. -/
theorem repeat_step (f : α → α) (n : Nat) (a : α) : Nat.repeat f n (f a) = f (Nat.repeat f n a) := by
  induction n with
  | zero => rfl
  | succ n ih => simp [Nat.repeat, ih]

/-- Multiplying by a square is multiplying twice. -/
theorem repeat_square {mul : α → α → α} (assoc : ∀ x y z, mul (mul x y) z = mul x (mul y z)) (b a : α) (k : Nat) :
    Nat.repeat (mul · (mul b b)) k a = Nat.repeat (mul · b) (2 * k) a := by
  induction k with
  | zero => rfl
  | succ k ih => simp [Nat.repeat, Nat.mul_succ, ih, assoc]

/-- Squaring multiplies by the base as often as the exponent says. -/
theorem onto_eq_repeat {mul : α → α → α} (assoc : ∀ x y z, mul (mul x y) z = mul x (mul y z)) (a b : α) (n : Nat) :
    onto mul a b n = Nat.repeat (mul · b) n a := by
  induction n using Nat.strongRecOn generalizing a b with
  | ind n ih =>
    rw [onto]
    split
    case isTrue h => subst h; rfl
    case isFalse h =>
      rw [ih (n / 2) (by omega)]
      by_cases one : n = 1
      · subst one; rfl
      · rw [if_neg one, repeat_square assoc]
        by_cases odd : n % 2 = 1
        · have whole : n = 2 * (n / 2) + 1 := by omega
          rw [if_pos odd, repeat_step (mul · b)]
          exact (congrArg (fun m => Nat.repeat (mul · b) m a) whole).symm
        · have whole : 2 * (n / 2) = n := by omega
          rw [if_neg odd, whole]

end Reckoner.Power
