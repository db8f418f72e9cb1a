import Mathlib.Algebra.Module.LinearMap.End
import Mathlib.LinearAlgebra.Matrix.ToLin
import Reckoner.Proofs.Poly.Coeff
/-!
# How coefficients act on sequences

A number scales sequences, and a matrix maps the first entries of a sequence, as many as it has columns, to as many as it
has rows. All coefficients act on one space, so the operations that are partial among them are total among the actions:
sums act as sums and products as compositions. The action of a matrix of known shape tells the matrix.
-/

namespace Reckoner

/-- Linear maps of sequences of Gaussian rationals. -/
abbrev Action := Module.End Gaussian (Nat → Gaussian)

namespace Action

/-- The first entries of a sequence. -/
def first (k : Nat) : (Nat → Gaussian) →ₗ[Gaussian] (Fin k → Gaussian) := LinearMap.funLeft Gaussian Gaussian Fin.val

/-- A sequence that begins with given entries and goes on with zeros. -/
noncomputable def extend (k : Nat) : (Fin k → Gaussian) →ₗ[Gaussian] (Nat → Gaussian) :=
  Function.ExtendByZero.linearMap Gaussian Fin.val

theorem first_extend (k : Nat) (s : Fin k → Gaussian) : first k (extend k s) = s := by
  funext i
  exact Fin.val_injective.extend_apply s 0 i

end Action

/-! ## Matrices -/

namespace Grid

variable {r c k : Nat}

/-- The action of the matrix that a grid stands for. -/
noncomputable def action (g : Grid r c) : Action :=
  Action.extend r ∘ₗ Matrix.toLin' g.toMatrix ∘ₗ Action.first c

theorem action_apply (g : Grid r c) (s : Nat → Gaussian) :
    g.action s = Action.extend r (Matrix.toLin' g.toMatrix (Action.first c s)) := rfl

theorem action_mul (g : Grid r k) (h : Grid k c) : (g.mul h).action = g.action * h.action := by
  apply LinearMap.ext
  intro s
  rw [Module.End.mul_apply, action_apply, action_apply, action_apply, Action.first_extend, toMatrix_mul,
    Matrix.toLin'_mul_apply]

theorem action_zipWith_add (g h : Grid r c) : (g.zipWith (· + ·) h).action = g.action + h.action := by
  apply LinearMap.ext
  intro s
  rw [LinearMap.add_apply, action_apply, action_apply, action_apply, toMatrix_add, map_add, LinearMap.add_apply, map_add]

theorem action_map_mul (g : Grid r c) (z : Gaussian) : (g.map (· * z)).action = z • g.action := by
  have multiple : (g.map (· * z)).toMatrix = z • g.toMatrix := by
    apply Matrix.ext
    intro i j
    simp [mul_comm]
  apply LinearMap.ext
  intro s
  rw [LinearMap.smul_apply, action_apply, action_apply, multiple, map_smul, LinearMap.smul_apply, map_smul]

/-- Grids of one size that act alike are equal. -/
theorem action_injective {g h : Grid r c} (same : g.action = h.action) : g = h := by
  apply toMatrix_injective
  apply Matrix.toLin'.injective
  apply LinearMap.ext
  intro s
  have entries := congrArg (Action.first r) (LinearMap.congr_fun same (Action.extend c s))
  simpa only [action_apply, Action.first_extend] using entries

end Grid

namespace Mat

variable {a b m : Mat}

/-- The action of a matrix. -/
noncomputable def action (m : Mat) : Action := m.grid.action

theorem action_mul (h : a.mul b = .ok m) : m.action = a.action * b.action := by
  obtain ⟨fit, rfl⟩ := mul_eq_ok_iff.1 h
  obtain ⟨r, k, _, _, g⟩ := a
  obtain ⟨k', c, _, _, l⟩ := b
  obtain rfl : k' = k := fit
  exact g.action_mul l

theorem action_add (h : a.add b = .ok m) : m.action = a.action + b.action := by
  obtain ⟨height, width, rfl⟩ := add_eq_ok h
  obtain ⟨r, c, _, _, g⟩ := a
  obtain ⟨r', c', _, _, l⟩ := b
  obtain rfl : r' = r := height
  obtain rfl : c' = c := width
  exact g.action_zipWith_add l

theorem action_scale (m : Mat) (z : Gaussian) : (m.scale z).action = z • m.action := m.grid.action_map_mul z

theorem action_neg (m : Mat) : m.neg.action = -m.action := by
  rw [neg_eq_scale, action_scale]
  exact neg_one_smul Gaussian m.action

/-- Matrices of one shape that act alike are equal. -/
theorem eq_of_action (shape : a.shape = b.shape) (same : a.action = b.action) : a = b := by
  obtain ⟨r, c, _, _, g⟩ := a
  obtain ⟨r', c', _, _, l⟩ := b
  obtain ⟨rfl, rfl⟩ := Prod.mk.inj shape
  obtain rfl : g = l := Grid.action_injective same
  rfl

end Mat

/-! ## Coefficients -/

namespace Coeff

variable {a b c : Coeff}

/-- The action of a coefficient. -/
noncomputable def action : Coeff → Action
  | .scalar z => z • 1
  | .matrix m => m.action

theorem action_scalar_mul (z : Gaussian) (A : Action) : (scalar z).action * A = z • A := by
  rw [action, smul_mul_assoc, one_mul]

theorem mul_action_scalar (z : Gaussian) (A : Action) : A * (scalar z).action = z • A := by
  rw [action, mul_smul_comm, MulOneClass.mul_one]

theorem action_add (h : a.add b = .ok c) : c.action = a.action + b.action := by
  cases a with
  | scalar y =>
    cases b with
    | scalar z =>
      cases h
      exact add_smul y z 1
    | matrix m => cases h
  | matrix m =>
    cases b with
    | scalar z => cases h
    | matrix l =>
      obtain ⟨_, sum, rfl⟩ := matrix_of_map h
      exact Mat.action_add sum

theorem action_mul (h : a.mul b = .ok c) : c.action = a.action * b.action := by
  cases a with
  | scalar y =>
    rw [action_scalar_mul]
    cases b with
    | scalar z =>
      cases h
      exact (smul_smul y z 1).symm
    | matrix m =>
      cases h
      exact m.action_scale y
  | matrix m =>
    cases b with
    | scalar z =>
      cases h
      rw [mul_action_scalar]
      exact m.action_scale z
    | matrix l =>
      obtain ⟨_, product, rfl⟩ := matrix_of_map h
      exact Mat.action_mul product

theorem action_neg (c : Coeff) : c.neg.action = -c.action := by
  cases c with
  | scalar z => exact neg_smul z (1 : Action)
  | matrix m => exact m.action_neg

/-- A quotient times the divisor is the dividend. -/
theorem action_divide (h : a.divide b = .ok c) : c.action * b.action = a.action := by
  obtain ⟨z, rfl, nonzero, product⟩ := divide_eq_ok_iff.1 h
  rw [action_mul product, mul_action_scalar, mul_action_scalar, smul_smul, mul_inv_cancel₀ nonzero, one_smul]

theorem action_of_isZero (zero : c.isZero = true) : c.action = 0 := by
  have h := action_mul (isZero_iff.1 zero)
  rwa [mul_action_scalar, zero_smul] at h

end Coeff

end Reckoner
