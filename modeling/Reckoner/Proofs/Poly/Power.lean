import Reckoner.Proofs.Poly.Denotation
/-!
# Powers of polynomials

Squaring gives the power of the polynomial that is denoted.
-/

namespace Reckoner.Poly

open Polynomial

/-- One step of squaring. -/
theorem powerOnto_of_ne_zero (a b : Poly) {n : Nat} (h : n ≠ 0) :
    powerOnto a b n =
      (if n % 2 = 1 then a.mul b else .ok a) >>= fun a =>
        (if n / 2 = 0 then .ok b else b.mul b) >>= fun b => powerOnto a b (n / 2) := by
  rw [powerOnto, dif_neg h]
  by_cases odd : n % 2 = 1 <;> by_cases last : n / 2 = 0 <;> simp only [odd, last, if_true, if_false] <;> rfl

variable {a b : Poly} {x : Text} {f g : Gaussian[X]}

theorem Denotes.powerOnto (ha : a.Denotes x f) (hb : b.Denotes x g) (n : Nat) :
    ∃ r, Poly.powerOnto a b n = .ok r ∧ r.Denotes x (f * g ^ n) := by
  induction n using Nat.strongRecOn generalizing a b f g with
  | ind n ih =>
    by_cases zero : n = 0
    · subst zero
      rw [Poly.powerOnto, dif_pos rfl]
      exact ⟨a, rfl, by simpa using ha⟩
    have accumulated : ∃ c, (if n % 2 = 1 then a.mul b else .ok a) = .ok c ∧ c.Denotes x (f * g ^ (n % 2)) := by
      rcases Nat.mod_two_eq_zero_or_one n with even | odd
      · rw [even, if_neg (by decide), pow_zero, mul_one]
        exact ⟨a, rfl, ha⟩
      · rw [odd, if_pos rfl, pow_one]
        exact ha.mul hb
    -- The square of the last step is not computed, and nothing is made of it.
    have squared : ∃ d k, (if n / 2 = 0 then .ok b else b.mul b) = .ok d ∧ d.Denotes x k ∧
        k ^ (n / 2) = (g * g) ^ (n / 2) := by
      by_cases last : n / 2 = 0
      · exact ⟨b, g, if_pos last, hb, by rw [last, pow_zero, pow_zero]⟩
      · obtain ⟨d, square, hd⟩ := hb.mul hb
        exact ⟨d, g * g, by rw [if_neg last, square], hd, rfl⟩
    obtain ⟨c, first, hc⟩ := accumulated
    obtain ⟨d, k, second, hd, power⟩ := squared
    obtain ⟨r, run, denotes⟩ := ih (n / 2) (by omega) hc hd
    refine ⟨r, ?_, ?_⟩
    · rw [powerOnto_of_ne_zero a b zero, first, second]
      exact run
    · have whole : f * g ^ (n % 2) * k ^ (n / 2) = f * g ^ n := by
        rw [power, ← pow_two, ← pow_mul, mul_assoc, ← pow_add, Nat.mod_add_div]
      rwa [whole] at denotes

theorem Denotes.power (h : a.Denotes x f) (n : Nat) : ∃ r, a.power n = .ok r ∧ r.Denotes x (f ^ n) := by
  obtain ⟨r, run, denotes⟩ := Denotes.powerOnto (constant_denotes (x := x) 1) h n
  rw [C_1, one_mul] at denotes
  refine ⟨r, ?_, denotes⟩
  rw [Poly.power, h.1]
  exact run

end Reckoner.Poly
