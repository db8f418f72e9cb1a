import Reckoner.Proofs.Poly.Coeff
/-!
# Powers of matrices

Squaring a square grid gives the powers of the matrix that it stands for. For a negative exponent the inverse is squared,
which stands for the inverse of a unit, so that integer powers of matrices are those of units wherever they are computed.
-/

namespace Reckoner

namespace Grid

variable {n : Nat}

/-- A product that has begun goes on as by the shared squaring. -/
theorem powerOnto_some (product base : Grid n n) (e : Nat) :
    powerOnto (some product) base e = some (Power.onto mul product base e) := by
  induction e using Nat.strongRecOn generalizing product base with
  | ind e ih =>
    rw [powerOnto, Power.onto]
    split
    case isTrue => rfl
    case isFalse positive =>
      have last : e / 2 = 0 ↔ e = 1 := by omega
      simp only [last]
      split
      · exact ih (e / 2) (by omega) _ _
      · exact ih (e / 2) (by omega) _ _

/-- A product that has not begun is that of the identity. -/
theorem powerOnto_none (base : Grid n n) {e : Nat} (positive : e ≠ 0) :
    powerOnto none base e = some (Power.onto mul (identity n) base e) := by
  induction e using Nat.strongRecOn generalizing base with
  | ind e ih =>
    rw [powerOnto, Power.onto, dif_neg positive, dif_neg positive]
    have last : e / 2 = 0 ↔ e = 1 := by omega
    simp only [last]
    by_cases odd : e % 2 = 1
    · rw [if_pos odd, if_pos odd, identity_mul, powerOnto_some]
    · rw [if_neg odd, if_neg odd, ih (e / 2) (by omega) _ (by omega)]

theorem power_eq_onto (g : Grid n n) (e : Nat) : g.power e = Power.onto mul (identity n) g e := by
  by_cases zero : e = 0
  · rw [zero, power_zero, Power.onto]
    rfl
  · rw [power, powerOnto_none g zero, Option.getD_some]

theorem toMatrix_power (g : Grid n n) (e : Nat) : (g.power e).toMatrix = g.toMatrix ^ e := by
  rw [power_eq_onto, Power.onto_eq_repeat mul_assoc]
  induction e with
  | zero => exact toMatrix_identity n
  | succ e ih => rw [Nat.repeat, toMatrix_mul, ih, pow_succ]

/-- A grid for which elimination ends stands for a unit, and the result for its inverse. -/
theorem exists_unit {g inv : Grid n n} (h : g.inverse = .ok inv) :
    ∃ u : (Matrix (Fin n) (Fin n) Gaussian)ˣ, u.val = g.toMatrix ∧ u⁻¹.val = inv.toMatrix := by
  have left : inv.mul g = identity n := inverseWith_mul h
  have right : g.mul inv = identity n := mul_eq_identity_comm left
  refine ⟨⟨g.toMatrix, inv.toMatrix, ?_, ?_⟩, rfl, rfl⟩
  · rw [← toMatrix_mul, right, toMatrix_identity]
  · rw [← toMatrix_mul, left, toMatrix_identity]

end Grid

namespace Mat

variable {m inv : Mat} {n : Int}

/-- The matrix with as many rows as columns that a grid is. -/
def ofGrid {k : Nat} (pos : 0 < k) (g : Grid k k) : Mat := ⟨k, k, pos, pos, g⟩

theorem exists_ofGrid (square : m.isSquare = true) :
    ∃ (k : Nat) (pos : 0 < k) (g : Grid k k), m = ofGrid pos g := by
  obtain ⟨height, width, height_pos, width_pos, grid⟩ := m
  obtain rfl : height = width := beq_iff_eq.1 square
  exact ⟨height, height_pos, grid, rfl⟩

section OfGrid

variable {k : Nat} {pos : 0 < k} {g h : Grid k k}

theorem ofGrid_mul : (ofGrid pos g).mul (ofGrid pos h) = .ok (ofGrid pos (g.mul h)) := dif_pos rfl

theorem ofGrid_inverse : (ofGrid pos g).inverse = g.inverse.map (ofGrid pos) := by
  rw [inverse, onSquare, dif_pos (show (ofGrid pos g).width = (ofGrid pos g).height from rfl)]
  show (g.inverse >>= fun i => pure (ofGrid pos i)) = _
  cases g.inverse <;> rfl

theorem ofGrid_power_of_nonneg (sign : 0 ≤ n) : (ofGrid pos g).power n = .ok (ofGrid pos (g.power n.toNat)) := by
  rw [power_eq, onSquare, dif_pos (show (ofGrid pos g).width = (ofGrid pos g).height from rfl), if_pos sign]
  rfl

theorem ofGrid_power_of_neg (sign : n < 0) :
    (ofGrid pos g).power n = g.inverse.map fun i => ofGrid pos (i.power (-n).toNat) := by
  rw [power_eq, onSquare, dif_pos (show (ofGrid pos g).width = (ofGrid pos g).height from rfl), if_neg (by omega)]
  show (g.inverse >>= fun i => pure (ofGrid pos (i.power (-n).toNat))) = _
  cases g.inverse <;> rfl

end OfGrid

/-- Only square matrices have inverses. -/
theorem isSquare_of_inverse (h : m.inverse = .ok inv) : m.isSquare = true := by
  unfold inverse onSquare at h
  split at h
  next square => exact beq_iff_eq.2 square.symm
  · cases h

/-- A power with a negative exponent is one of the inverse. -/
theorem power_of_inverse (h : m.inverse = .ok inv) (sign : n < 0) :
    ∃ r, m.power n = .ok r ∧ inv.power (-n) = .ok r := by
  obtain ⟨k, pos, g, rfl⟩ := exists_ofGrid (isSquare_of_inverse h)
  rw [ofGrid_inverse, Outcome.map_eq_ok] at h
  obtain ⟨i, found, rfl⟩ := h
  refine ⟨ofGrid pos (i.power (-n).toNat), ?_, ofGrid_power_of_nonneg (by omega)⟩
  rw [ofGrid_power_of_neg sign, found]
  rfl

end Mat

end Reckoner
