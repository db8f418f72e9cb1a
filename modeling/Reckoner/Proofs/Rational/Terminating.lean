import Mathlib.Data.Nat.Prime.Basic
import Reckoner.Proofs.Rational.Nearest
/-!
# Numbers with finitely many decimals

A decimal expansion ends if two and five are the only primes in the denominator. Main statement: the loop that takes
them out ends for every number, and it leaves one just if the number has few enough decimals for some count of places,
that is, if its product with some power of ten is an integer.
-/

namespace Reckoner.Rational

/-! ## Taking out a factor -/

/-- The loop that divides by `p` as long as nothing is left over: from `n` it takes so many turns and ends with `m`.
It has no guard, so from zero it does not end. -/
inductive Strips (p : Nat) : Nat → Nat → Nat → Prop where
  | stop {n} : n % p ≠ 0 → Strips p n 0 n
  | turn {n turns m} : n % p = 0 → Strips p (n / p) turns m → Strips p n (turns + 1) m

variable {p n m turns odd fives rest places : Nat} {q : Rat}

theorem Strips.eq_pow_mul (h : Strips p n turns m) : n = p ^ turns * m := by
  induction h with
  | stop => rw [pow_zero, one_mul]
  | @turn n turns m divides _ ih =>
    have back := Nat.mul_div_cancel' (Nat.dvd_of_mod_eq_zero divides)
    rw [pow_succ', mul_assoc, ← ih, back]

theorem Strips.not_dvd (h : Strips p n turns m) : ¬p ∣ m := by
  induction h with
  | stop remains => exact fun divides => remains (Nat.mod_eq_zero_of_dvd divides)
  | turn _ _ ih => exact ih

theorem Strips.dvd (h : Strips p n turns m) : m ∣ n := by
  rw [h.eq_pow_mul]
  exact Nat.dvd_mul_left m _

theorem Strips.pos (h : Strips p n turns m) : 0 < m := by
  refine Nat.pos_of_ne_zero ?_
  rintro rfl
  exact h.not_dvd (dvd_zero p)

/-- From a positive number the loop ends, since each turn makes the number smaller. -/
theorem exists_strips (hp : 1 < p) (hn : 0 < n) : ∃ turns, Strips p n turns (stripFactor p n) := by
  fun_induction stripFactor p n with
  | case1 n h ih =>
    have smaller : 0 < n / p := Nat.div_pos (Nat.le_of_dvd hn (Nat.dvd_of_mod_eq_zero h.2.2)) hp.le
    obtain ⟨turns, loop⟩ := ih smaller
    exact ⟨turns + 1, .turn h.2.2 loop⟩
  | case2 n h => exact ⟨0, .stop fun none => h ⟨hp, hn, none⟩⟩

/-! ## Powers of ten -/

theorem fitsDecimal_iff_dvd : fitsDecimal places q = true ↔ q.den ∣ 10 ^ places := by
  rw [fitsDecimal, beq_iff_eq, Nat.dvd_iff_mod_eq_zero]
  rfl

theorem fitsDecimal_iff_mul : fitsDecimal places q = true ↔ ∃ i : Int, q * 10 ^ places = i := by
  have scale : (10 : Rat) ^ places ≠ 0 := pow_ne_zero places (by norm_num)
  rw [fitsDecimal_iff]
  exact exists_congr fun i => eq_div_iff scale

/-- A number with few enough decimals has few enough for more places as well. -/
theorem fitsDecimal_mono {fewer more : Nat} (order : fewer ≤ more) (fits : fitsDecimal fewer q = true) :
    fitsDecimal more q = true := by
  rw [fitsDecimal_iff_dvd] at fits ⊢
  exact fits.trans (pow_dvd_pow 10 order)

/-- What both loops leave has no common divisor with a power of ten. -/
theorem coprime_of_strips (two : Strips 2 n turns odd) (five : Strips 5 odd fives rest) (places : Nat) :
    rest.Coprime (10 ^ places) := by
  have not_two : ¬2 ∣ rest := fun divides => two.not_dvd (divides.trans five.dvd)
  have coprime_two : Nat.Coprime 2 rest := (Nat.Prime.coprime_iff_not_dvd Nat.prime_two).2 not_two
  have coprime_five : Nat.Coprime 5 rest := (Nat.Prime.coprime_iff_not_dvd Nat.prime_five).2 five.not_dvd
  have coprime_ten : Nat.Coprime (2 * 5) rest := coprime_two.mul_left coprime_five
  exact (coprime_ten.pow_left places).symm

/-- A number divides a power of ten just if both loops leave one of it. -/
theorem dvd_pow_ten_iff (two : Strips 2 n turns odd) (five : Strips 5 odd fives rest) :
    (∃ places, n ∣ 10 ^ places) ↔ rest = 1 := by
  constructor
  · rintro ⟨places, divides⟩
    have part : rest ∣ 10 ^ places := (five.dvd.trans two.dvd).trans divides
    exact (coprime_of_strips two five places).eq_one_of_dvd part
  · rintro rfl
    refine ⟨turns + fives, ?_⟩
    have factors : n = 2 ^ turns * 5 ^ fives := by rw [two.eq_pow_mul, five.eq_pow_mul, mul_one]
    have ten : (10 : Nat) ^ (turns + fives) = 2 ^ (turns + fives) * 5 ^ (turns + fives) := mul_pow 2 5 _
    rw [factors, ten]
    exact mul_dvd_mul (pow_dvd_pow 2 (Nat.le_add_right _ _)) (pow_dvd_pow 5 (Nat.le_add_left _ _))

end Reckoner.Rational

namespace Reckoner.Datum

open Rational

theorem fitsDecimal_integer (usual places : Nat) (q : Rat) :
    fitsDecimal usual (.integer places) q = .ok (Rational.fitsDecimal places q) := by
  have given : natural? usual (.integer places) = some places := by simp [natural?]
  rw [fitsDecimal, given]

/-- For every number the loops that take the factors two and five out of the denominator end, and the decimal expansion
is said to end just if they leave one, which is just if the number is a decimal with some count of places. It is one with
a given count just if its product with that power of ten is an integer, and then with every greater count. -/
theorem terminating_decimals (usual : Nat) (q : Rat) :
    (∃ twos odd fives rest, Strips 2 q.den twos odd ∧ Strips 5 odd fives rest ∧ (isTerminating q = true ↔ rest = 1)) ∧
      (isTerminating q = true ↔ ∃ places : Nat, fitsDecimal usual (.integer places) q = .ok true) ∧
      (∀ fewer more : Nat, fewer ≤ more → fitsDecimal usual (.integer fewer) q = .ok true →
        fitsDecimal usual (.integer more) q = .ok true) ∧
      ∀ places : Nat, ∃ fits, fitsDecimal usual (.integer places) q = .ok fits ∧
        (fits = true ↔ ∃ i : Int, q * 10 ^ places = i) := by
  obtain ⟨twos, two⟩ := exists_strips Nat.one_lt_two q.den_pos
  obtain ⟨fives, five⟩ := exists_strips (p := 5) (by omega) two.pos
  have ends : isTerminating q = true ↔ stripFactor 5 (stripFactor 2 q.den) = 1 := by rw [isTerminating, beq_iff_eq]
  simp only [fitsDecimal_integer, Except.ok.injEq]
  refine ⟨⟨twos, _, fives, _, two, five, ends⟩, ?_, fun fewer more order fits => fitsDecimal_mono order fits,
    fun places => ⟨_, rfl, fitsDecimal_iff_mul⟩⟩
  rw [ends, ← dvd_pow_ten_iff two five]
  exact exists_congr fun places => fitsDecimal_iff_dvd.symm

theorem terminating_decimals_threeEighths : 3 ≤ 5 ∧ fitsDecimal 10 (.integer 3) (3 / 8) = .ok true ∧
    isTerminating (3 / 8) = true ∧ fitsDecimal 10 (.integer 5) (3 / 8) = .ok true := by
  obtain ⟨-, ends, more, -⟩ := terminating_decimals 10 (3 / 8)
  have order : 3 ≤ 5 := by omega
  have fits : fitsDecimal 10 (.integer 3) (3 / 8) = .ok true := by decide +kernel
  exact ⟨order, fits, ends.2 ⟨3, fits⟩, more 3 5 order fits⟩

/-- A third has no last decimal. -/
example : isTerminating (1 / 3) = false := by decide +kernel

end Reckoner.Datum
