import Reckoner.Proofs.Mat.Power
import Reckoner.Proofs.Poly.Monomial
import Reckoner.Proofs.Value.Power
/-!
# Powers are repeated products

Rational numbers, complex numbers, square matrices of one size and polynomials in one variable each stand for the elements
of a monoid, one value for each element. Whatever way a power is found, it stands for the power of the monoid: of any
element if the exponent is natural, of a unit if it is negative.
-/

namespace Reckoner

open Polynomial

/-! ## Integer powers in a monoid -/

namespace Power

variable {M : Type} [Monoid M] {a b c d : M} {m n : Int}

/-- `b` is the `n`th power of `a`; a negative power only a unit has. -/
def IsPower (a : M) (n : Int) (b : M) : Prop :=
  (∃ k : Nat, n = k ∧ b = a ^ k) ∨ ∃ u : Mˣ, u.val = a ∧ b = (u ^ n).val

theorem IsPower.eq_of_unit {u : Mˣ} (h : IsPower u.val n b) : b = (u ^ n).val := by
  rcases h with ⟨k, rfl, rfl⟩ | ⟨w, same, rfl⟩
  · rw [zpow_natCast, Units.val_pow_eq_pow_val]
  · rw [Units.ext same]

/-- Exponents of powers of one element add up. -/
theorem IsPower.add (hm : IsPower a m b) (hn : IsPower a n c) (hs : IsPower a (m + n) d) : d = b * c := by
  by_cases unit : IsUnit a
  · obtain ⟨u, rfl⟩ := unit
    rw [hm.eq_of_unit, hn.eq_of_unit, hs.eq_of_unit, zpow_add, Units.val_mul]
  · have natural : ∀ {n : Int} {b : M}, IsPower a n b → ∃ k : Nat, n = k ∧ b = a ^ k := by
      rintro n b (h | ⟨u, rfl, -⟩)
      · exact h
      · exact absurd u.isUnit unit
    obtain ⟨i, rfl, rfl⟩ := natural hm
    obtain ⟨j, rfl, rfl⟩ := natural hn
    obtain ⟨k, sum, rfl⟩ := natural hs
    obtain rfl : k = i + j := by omega
    exact pow_add a i j

end Power

/-! ## Values as elements of a monoid -/

namespace Value

/-- The unit of the kind of a value: a one, an identity matrix of its size, or a constant in its variable. -/
def unit : Value → Outcome Value
  | .number (.rational _) => .ok (rational 1)
  | .number (.complex _) => .ok (complex 1)
  | .matrix m => (Mat.identity m.height).map .matrix
  | .polynomial p => .ok (.polynomial (.constant p.var (.ofRat 1)))

/-- The product of `n` factors `v`, from the left. -/
def repeated (v : Value) : Nat → Outcome Value
  | 0 => v.unit
  | 1 => .ok v
  | n + 2 => do (← repeated v (n + 1)).mul v

/-- Values of one kind stand for the elements of a monoid: different values for different elements, with the unit, the
products and the powers of the monoid. -/
structure Realizes {M : Type} [Monoid M] (R : Value → M → Prop) : Prop where
  unique : ∀ {v w a}, R v a → R w a → v = w
  unit : ∀ {v a}, R v a → ∃ u, v.unit = .ok u ∧ R u 1
  mul : ∀ {v w a b}, R v a → R w b → ∃ r, v.mul w = .ok r ∧ R r (a * b)
  power : ∀ {v a}, R v a → ∀ n : Nat, ∃ r, powerInt n v = .ok r ∧ R r (a ^ n)
  isPower : ∀ {v a n r}, R v a → powerInt n v = .ok r → ∃ b, Power.IsPower a n b ∧ R r b

namespace Realizes

variable {M : Type} [Monoid M] {R : Value → M → Prop} {v : Value} {a : M}

theorem repeated (realizes : Realizes R) (h : R v a) (n : Nat) : ∃ r, v.repeated n = .ok r ∧ R r (a ^ n) := by
  induction n with
  | zero =>
    obtain ⟨u, run, hu⟩ := realizes.unit h
    exact ⟨u, run, by rwa [pow_zero]⟩
  | succ n ih =>
    cases n with
    | zero => exact ⟨v, rfl, by rwa [pow_one]⟩
    | succ n =>
      obtain ⟨before, run, hb⟩ := ih
      obtain ⟨r, product, hr⟩ := realizes.mul hb h
      refine ⟨r, ?_, by rwa [pow_succ]⟩
      exact Outcome.bind_eq_ok.2 ⟨before, run, product⟩

/-- A power found by squaring is the repeated product. -/
theorem power_eq_repeated (realizes : Realizes R) (h : R v a) (n : Nat) :
    ∃ r, powerInt n v = .ok r ∧ v.repeated n = .ok r := by
  obtain ⟨r, squared, hr⟩ := realizes.power h n
  obtain ⟨s, multiplied, hs⟩ := realizes.repeated h n
  exact ⟨r, squared, realizes.unique hr hs ▸ multiplied⟩

theorem power_add (realizes : Realizes R) (h : R v a) {m n : Int} {r s t : Value} (sum : powerInt (m + n) v = .ok r)
    (left : powerInt m v = .ok s) (right : powerInt n v = .ok t) : s.mul t = .ok r := by
  obtain ⟨d, hd, hr⟩ := realizes.isPower h sum
  obtain ⟨b, hb, hs⟩ := realizes.isPower h left
  obtain ⟨c, hc, ht⟩ := realizes.isPower h right
  obtain ⟨r', product, hr'⟩ := realizes.mul hs ht
  obtain rfl : d = b * c := hb.add hc hd
  rwa [realizes.unique hr hr']

end Realizes

/-! ### Numbers -/

/-- One of the two kinds of numbers: a field, in which a negative power of zero is refused. -/
theorem realizes_field {K : Type} [Field K] {embed : K → Value} {raise : K → Int → Outcome K}
    (unit : ∀ a, (embed a).unit = .ok (embed 1))
    (mul : ∀ a b, (embed a).mul (embed b) = .ok (embed (a * b)))
    (power : ∀ a n, powerInt n (embed a) = (raise a n).map embed)
    (nonneg : ∀ {a n}, 0 ≤ n → raise a n = .ok (a ^ n.toNat)) (nonzero : ∀ {a n}, a ≠ 0 → raise a n = .ok (a ^ n))
    (zero : ∀ {n b}, n < 0 → raise 0 n ≠ .ok b) : Realizes fun v a => v = embed a where
  unique hv hw := hv.trans hw.symm
  unit := by
    rintro _ a rfl
    exact ⟨_, unit a, rfl⟩
  mul := by
    rintro _ _ a b rfl rfl
    exact ⟨_, mul a b, rfl⟩
  power := by
    rintro _ a rfl n
    refine ⟨_, ?_, rfl⟩
    rw [power, nonneg (Int.natCast_nonneg n)]
    rfl
  isPower := by
    rintro _ a n r rfl run
    obtain ⟨b, raised, rfl⟩ := Outcome.map_eq_ok.1 ((power a n).symm.trans run)
    refine ⟨b, ?_, rfl⟩
    by_cases sign : 0 ≤ n
    · cases (nonneg sign).symm.trans raised
      exact .inl ⟨n.toNat, by omega, rfl⟩
    · by_cases h : a = 0
      · subst h
        exact absurd raised (zero (by omega))
      · cases (nonzero h).symm.trans raised
        exact .inr ⟨Units.mk0 a h, rfl, by rw [Units.val_zpow_eq_zpow_val, Units.val_mk0]⟩

theorem realizes_rational : Realizes fun v q => v = rational q :=
  realizes_field (fun _ => rfl) (fun _ _ => rfl)
    (fun q n => by rw [rational, powerInt, Number.power]; cases Rational.power q n <;> rfl)
    Rational.power_of_nonneg Rational.power_of_ne_zero
    (fun negative h => by rw [Rational.power, if_neg (by omega), if_pos rfl] at h; cases h)

theorem realizes_complex : Realizes fun v z => v = complex z :=
  realizes_field (fun _ => rfl) (fun _ _ => rfl)
    (fun z n => by rw [complex, powerInt, Number.power]; cases Gaussian.power z n <;> rfl)
    Gaussian.power_of_nonneg Gaussian.power_of_ne_zero
    (fun negative h => by rw [Gaussian.power, if_neg (by omega), if_pos rfl] at h; cases h)

/-- A power with a negative exponent is one of the reciprocal. -/
theorem power_of_reciprocal {a : Number} (nonzero : a.toGaussian ≠ 0) {n : Int} :
    ∃ b c, (Number.rational 1).divide a = .ok b ∧ a.power n = .ok c ∧ b.power (-n) = .ok c := by
  cases a with
  | rational q =>
    have h : q ≠ 0 := fun zero => nonzero (Gaussian.ofRat_eq_zero.2 zero)
    refine ⟨.rational q⁻¹, .rational (q ^ n), ?_, ?_, ?_⟩
    · rw [Number.divide, Rational.divide, if_neg h, one_div]
      rfl
    · rw [Number.power, Rational.power_of_ne_zero h]
      rfl
    · rw [Number.power, Rational.power_of_ne_zero (inv_ne_zero h), inv_zpow', neg_neg]
      rfl
  | complex z =>
    have h : z ≠ 0 := nonzero
    refine ⟨.complex z⁻¹, .complex (z ^ n), ?_, ?_, ?_⟩
    · show (Gaussian.divide 1 z).map Number.complex = _
      rw [Gaussian.divide, if_neg h, one_div]
      rfl
    · rw [Number.power, Gaussian.power_of_ne_zero h]
      rfl
    · rw [Number.power, Gaussian.power_of_ne_zero (inv_ne_zero h), inv_zpow', neg_neg]
      rfl

theorem power_of_zero {a : Number} (zero : a.toGaussian = 0) {n : Int} (negative : n < 0) :
    a.power n = refuse .negativePowerOfZero := by
  have sign : ¬0 ≤ n := by omega
  cases a with
  | rational q =>
    obtain rfl := Gaussian.ofRat_eq_zero.1 zero
    rw [Number.power, Rational.power, if_neg sign, if_pos rfl]
    rfl
  | complex z =>
    obtain rfl : z = 0 := zero
    rw [Number.power, Gaussian.power, if_neg sign, if_pos rfl]
    rfl

/-! ### Matrices -/

/-- Grids of one size as matrices over the field of their cells. -/
theorem realizes_matrix {k : Nat} (pos : 0 < k) : Realizes fun v (A : Matrix (Fin k) (Fin k) Gaussian) =>
    ∃ g : Grid k k, v = .matrix (.ofGrid pos g) ∧ g.toMatrix = A where
  unique := by
    rintro _ _ _ ⟨g, rfl, rfl⟩ ⟨h, rfl, same⟩
    rw [Grid.toMatrix_injective same]
  unit := by
    rintro _ _ ⟨g, rfl, rfl⟩
    refine ⟨_, ?_, Grid.identity k, rfl, Grid.toMatrix_identity k⟩
    rw [Value.unit, Mat.identity_height]
    rfl
  mul := by
    rintro _ _ _ _ ⟨g, rfl, rfl⟩ ⟨h, rfl, rfl⟩
    refine ⟨_, ?_, g.mul h, rfl, Grid.toMatrix_mul g h⟩
    rw [Value.mul, Mat.ofGrid_mul]
    rfl
  power := by
    rintro _ _ ⟨g, rfl, rfl⟩ n
    refine ⟨_, ?_, g.power n, rfl, Grid.toMatrix_power g n⟩
    rw [powerInt, Mat.ofGrid_power_of_nonneg (Int.natCast_nonneg n)]
    rfl
  isPower := by
    rintro _ _ n r ⟨g, rfl, rfl⟩ run
    obtain ⟨m, raised, rfl⟩ := Outcome.map_eq_ok.1 run
    by_cases sign : 0 ≤ n
    · cases (Mat.ofGrid_power_of_nonneg sign).symm.trans raised
      exact ⟨_, .inl ⟨n.toNat, by omega, rfl⟩, _, rfl, Grid.toMatrix_power g _⟩
    · obtain ⟨i, found, rfl⟩ := Outcome.map_eq_ok.1 ((Mat.ofGrid_power_of_neg (by omega)).symm.trans raised)
      obtain ⟨u, value, inverse⟩ := Grid.exists_unit found
      refine ⟨_, .inr ⟨u, value, rfl⟩, _, rfl, ?_⟩
      have opposite : ((-n).toNat : Int) = -n := by omega
      rw [Grid.toMatrix_power, ← inverse, ← Units.val_pow_eq_pow_val, ← zpow_natCast, opposite, inv_zpow', neg_neg]

/-! ### Polynomials -/

/-- A power of a polynomial is a polynomial. -/
theorem powerInt_polynomial {p : Poly} {n : Int} {r : Value} (h : powerInt n (.polynomial p) = .ok r) :
    ∃ q, r = .polynomial q := by
  rw [powerInt] at h
  split at h
  · obtain ⟨q, -, rfl⟩ := Outcome.map_eq_ok.1 h
    exact ⟨q, rfl⟩
  · split at h
    · obtain ⟨c, -, h⟩ := Outcome.bind_eq_ok.1 h
      cases h
      exact ⟨_, rfl⟩
    · cases h

theorem realizes_polynomial (x : Text) : Realizes fun v f => ∃ p : Poly, v = .polynomial p ∧ p.Denotes x f where
  unique := by
    rintro _ _ f ⟨p, rfl, hp⟩ ⟨q, rfl, hq⟩
    rw [Poly.ext_terms (hp.1.trans hq.1.symm) (hp.terms_eq hq)]
  unit := by
    rintro _ f ⟨p, rfl, hp⟩
    obtain rfl := hp.1
    exact ⟨_, rfl, _, rfl, Poly.constant_denotes 1⟩
  mul := by
    rintro _ _ f g ⟨p, rfl, hp⟩ ⟨q, rfl, hq⟩
    obtain ⟨r, product, hr⟩ := hp.mul hq
    refine ⟨.polynomial r, ?_, r, rfl, hr⟩
    rw [Value.mul, toPoly, product]
    rfl
  power := by
    rintro _ f ⟨p, rfl, hp⟩ n
    obtain ⟨r, raised, hr⟩ := hp.power n
    refine ⟨.polynomial r, ?_, r, rfl, hr⟩
    rw [powerInt, if_pos (Int.natCast_nonneg n), Int.toNat_natCast, raised]
    rfl
  isPower := by
    rintro _ f n r ⟨p, rfl, hp⟩ run
    have hv : (Value.polynomial p).Denotes x f := hp
    obtain ⟨q, rfl⟩ := powerInt_polynomial run
    rcases hv.of_powerInt run with sign | ⟨c, nonzero, rfl⟩
    · obtain ⟨s, raised, hs⟩ := hv.powerInt_of_nonneg sign
      cases raised.symm.trans run
      exact ⟨_, .inl ⟨n.toNat, by omega, rfl⟩, q, rfl, hs⟩
    · obtain ⟨s, raised, hs⟩ := hv.powerInt_constant nonzero n
      cases raised.symm.trans run
      -- A constant that is not zero is a unit among polynomials.
      refine ⟨_, .inr ⟨Units.map C.toMonoidHom (Units.mk0 c nonzero), rfl, rfl⟩, q, rfl, ?_⟩
      rw [← map_zpow, Units.coe_map, Units.val_zpow_eq_zpow_val, Units.val_mk0]
      exact hs

/-! ## All kinds -/

/-- Whether the value is a number, a square matrix, or a polynomial with numbers as coefficients. -/
def HasPowers : Value → Prop
  | .number _ => True
  | .matrix m => m.isSquare = true
  | .polynomial p => ∀ t ∈ p.terms, ∃ z, t.2 = .scalar z

/-- A value that has powers is of a kind that realizes a monoid. -/
theorem HasPowers.realizes {v : Value} (h : v.HasPowers) :
    ∃ (M : Type) (_ : Monoid M) (R : Value → M → Prop) (a : M), Realizes R ∧ R v a := by
  cases v with
  | number a =>
    cases a with
    | rational q => exact ⟨_, _, _, q, realizes_rational, rfl⟩
    | complex z => exact ⟨_, _, _, z, realizes_complex, rfl⟩
  | matrix m =>
    obtain ⟨k, pos, g, rfl⟩ := Mat.exists_ofGrid h
    exact ⟨_, _, _, g.toMatrix, realizes_matrix pos, g, rfl, rfl⟩
  | polynomial p =>
    obtain ⟨f, hp⟩ := Poly.exists_denotes h
    exact ⟨_, _, _, f, realizes_polynomial p.var, p, rfl, hp⟩

/-- A power with a natural exponent is the repeated product, whatever the kind. -/
theorem HasPowers.power_eq_repeated {v : Value} (h : v.HasPowers) (n : Nat) :
    ∃ r, powerInt n v = .ok r ∧ v.repeated n = .ok r := by
  obtain ⟨M, _, R, a, realizes, hv⟩ := h.realizes
  exact realizes.power_eq_repeated hv n

/-- How the integer powers of a value come from products, reciprocals and inverses. -/
structure PowersMultiply (v : Value) : Prop where
  natural : ∀ n : Nat, ∃ r, powerInt n v = .ok r ∧ v.repeated n = .ok r
  reciprocal : ∀ a, v = .number a → a.isZero = false → ∀ n < 0,
    ∃ w r, (rational 1).divide v = .ok w ∧ powerInt n v = .ok r ∧ powerInt (-n) w = .ok r
  zero : ∀ a, v = .number a → a.isZero = true → ∀ n < 0,
    ∃ e, powerInt n v = refuse e ∧ e.family = .divideByZero
  inverse : ∀ m i, v = .matrix m → m.inverse = .ok i → ∀ n < 0,
    ∃ r, powerInt n v = .ok r ∧ powerInt (-n) (.matrix i) = .ok r
  sum : ∀ m n r s t, powerInt (m + n) v = .ok r → powerInt m v = .ok s → powerInt n v = .ok t → s.mul t = .ok r

/-- Powers with natural exponents are repeated products, those with negative ones are powers of the reciprocal or the
inverse, and exponents add up. -/
theorem powers_multiply {v : Value} (h : v.HasPowers) : v.PowersMultiply := by
  obtain ⟨M, _, R, a, realizes, hv⟩ := h.realizes
  refine ⟨h.power_eq_repeated, ?_, ?_, ?_, fun m n r s t => realizes.power_add hv⟩
  · rintro a rfl nonzero n -
    have h : a.toGaussian ≠ 0 := fun zero => by simp [Number.isZero_iff.2 zero] at nonzero
    obtain ⟨b, c, quotient, power, opposite⟩ := power_of_reciprocal h (n := n)
    refine ⟨.number b, .number c, ?_, ?_, ?_⟩
    · rw [rational, divide, quotient]
      rfl
    · rw [powerInt, power]
      rfl
    · rw [powerInt, opposite]
      rfl
  · rintro a rfl zero n negative
    refine ⟨.negativePowerOfZero, ?_, rfl⟩
    rw [powerInt, power_of_zero (Number.isZero_iff.1 zero) negative]
    rfl
  · rintro m i rfl found n negative
    obtain ⟨r, power, opposite⟩ := Mat.power_of_inverse found negative
    refine ⟨.matrix r, ?_, ?_⟩
    · rw [powerInt, power]
      rfl
    · rw [powerInt, opposite]
      rfl

/-- A rotation by a quarter, whose fourth power is the identity, and zero, which has no negative powers. -/
theorem powers_multiply_quarterTurn :
    let turn : Value := .matrix (.ofGrid (by decide : 0 < 2) (.ofFn fun i j => if i < j then -1 else if j < i then 1 else 0))
    turn.HasPowers ∧ turn.PowersMultiply ∧ (complex 0).HasPowers ∧ (complex 0).PowersMultiply :=
  ⟨rfl, powers_multiply (v := .matrix (.ofGrid (by decide : 0 < 2) _)) rfl, trivial, powers_multiply (v := complex 0) trivial⟩

end Value

end Reckoner
