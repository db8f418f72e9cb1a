import Reckoner.Proofs.Mat.Action
import Reckoner.Proofs.Poly.Monomial
/-!
# How polynomials act at a number

At a number, a polynomial acts as the sum of the actions of its coefficients, each multiplied by a power of the number. The
coefficients of a polynomial that has a value there are all numbers, or matrices of one shape: that is their kind, which
sums keep and products combine. A polynomial without terms is of every kind.
-/

namespace Reckoner

/-! ## Kinds -/

namespace Coeff

/-- What a coefficient is: a matrix of some shape, or no matrix. -/
abbrev Kind := Option Shape

/-- The kind of a coefficient. -/
def kind : Coeff → Kind
  | .scalar _ => none
  | .matrix m => some m.shape

/-- The kind of products of two kinds, if there are any. -/
def Kind.mul : Kind → Kind → Option Kind
  | none, l => some l
  | k, none => some k
  | some (r, k), some (k', c) => if k' = k then some (some (r, c)) else none

@[simp] theorem Kind.none_mul (k : Kind) : mul none k = some k := by
  cases k <;> rfl

@[simp] theorem Kind.mul_none (k : Kind) : mul k none = some k := by
  cases k <;> rfl

variable {a b c : Coeff}

theorem kind_add (h : a.add b = .ok c) : a.kind = c.kind ∧ b.kind = c.kind := by
  cases a <;> cases b
  case scalar.scalar =>
    cases h
    exact ⟨rfl, rfl⟩
  case matrix.matrix l m =>
    obtain ⟨_, sum, rfl⟩ := matrix_of_map h
    obtain ⟨height, width, rfl⟩ := Mat.add_eq_ok sum
    exact ⟨rfl, congrArg some (Prod.ext height width)⟩
  all_goals cases h

theorem kind_mul (h : a.mul b = .ok c) : Kind.mul a.kind b.kind = some c.kind := by
  cases a <;> cases b
  case matrix.matrix l m =>
    obtain ⟨_, product, rfl⟩ := matrix_of_map h
    obtain ⟨fit, rfl⟩ := Mat.mul_eq_ok_iff.1 product
    exact if_pos fit
  all_goals
    cases h
    rfl

theorem kind_neg (c : Coeff) : c.neg.kind = c.kind := by
  cases c <;> rfl

theorem kind_divide (h : a.divide b = .ok c) : c.kind = a.kind := by
  obtain ⟨z, rfl, -, product⟩ := divide_eq_ok_iff.1 h
  have kinds := kind_mul product
  rw [show (scalar z⁻¹).kind = none from rfl, Kind.mul_none] at kinds
  exact (Option.some.inj kinds).symm

/-- A quotient by a number is of the kind of the dividend. -/
theorem divide_scalar {y : Gaussian} (nonzero : y ≠ 0) (h : a.divide (.scalar y) = .ok c) :
    c.kind = a.kind ∧ c.action = y⁻¹ • a.action := by
  have undone : y • c.action = a.action := by
    rw [← mul_action_scalar]
    exact action_divide h
  exact ⟨kind_divide h, by rw [← undone, smul_smul, inv_mul_cancel₀ nonzero, one_smul]⟩

end Coeff

open Coeff (Kind)

/-! ## Terms -/

namespace Terms

variable {ts us vs : Terms} {z : Gaussian} {k l m : Kind} {A B : Action} {n : Nat} {c : Coeff}

/-- The action of the terms with what acts as `B` in the place of the variable. -/
noncomputable def composed (ts : Terms) (B : Action) : Action := (ts.map fun t => t.2.action * B ^ t.1).sum

theorem composed_cons (t : Nat × Coeff) (ts : Terms) (B : Action) :
    composed (t :: ts) B = t.2.action * B ^ t.1 + composed ts B := by
  rw [composed, List.map_cons, List.sum_cons, composed]

theorem composed_reverse (ts : Terms) (B : Action) : composed ts.reverse B = composed ts B := by
  rw [composed, composed, List.map_reverse, List.sum_reverse]

/-- A number in the place of the variable multiplies a term by its power. -/
theorem mul_scalar_pow (z : Gaussian) (n : Nat) (A : Action) : A * (Coeff.scalar z).action ^ n = z ^ n • A := by
  have power : (Coeff.scalar z).action ^ n = (Coeff.scalar (z ^ n)).action := by
    rw [Coeff.action, Coeff.action, smul_pow, one_pow]
  rw [power, Coeff.mul_action_scalar]

/-- Coefficients of one kind, and their action at `z`. -/
def Acts (z : Gaussian) (k : Kind) (A : Action) (ts : Terms) : Prop :=
  (∀ t ∈ ts, t.2.kind = k) ∧ ts.composed (Coeff.scalar z).action = A

theorem Acts.nil : Acts z k 0 [] := ⟨List.forall_mem_nil _, rfl⟩

theorem acts_cons {t : Nat × Coeff} :
    Acts z k A (t :: ts) ↔ t.2.kind = k ∧ ∃ B, Acts z k B ts ∧ z ^ t.1 • t.2.action + B = A := by
  rw [Acts, List.forall_mem_cons, composed_cons, mul_scalar_pow]
  constructor
  · rintro ⟨⟨first, later⟩, sum⟩
    exact ⟨first, _, ⟨later, rfl⟩, sum⟩
  · rintro ⟨first, _, ⟨later, rfl⟩, sum⟩
    exact ⟨⟨first, later⟩, sum⟩

theorem Acts.single (n : Nat) (c : Coeff) : Acts z c.kind (z ^ n • c.action) [(n, c)] :=
  acts_cons.2 ⟨rfl, 0, .nil, add_zero _⟩

theorem Acts.nonzero (h : ts.Acts z k A) : ts.nonzero.Acts z k A := by
  induction ts generalizing A with
  | nil => exact h
  | cons t ts ih =>
    obtain ⟨first, B, later, rfl⟩ := acts_cons.1 h
    cases zero : t.2.isZero with
    | true =>
      rw [nonzero_cons_of_isZero zero, Coeff.action_of_isZero zero, smul_zero, zero_add]
      exact ih later
    | false =>
      rw [nonzero_cons zero]
      exact acts_cons.2 ⟨first, B, ih later, rfl⟩

/-- A coefficient added at a power adds its action. -/
theorem Acts.add (h : ts.Acts z k A) (kind : c.kind = k) (sum : Terms.add n c ts = .ok us) :
    us.Acts z k (A + z ^ n • c.action) := by
  induction ts generalizing A us with
  | nil =>
    cases sum
    obtain rfl : 0 = A := h.2
    rw [zero_add, ← kind]
    exact .single n c
  | cons t ts ih =>
    obtain ⟨first, B, later, rfl⟩ := acts_cons.1 h
    rw [Terms.add] at sum
    split at sum
    next =>
      cases sum
      rw [add_comm]
      exact acts_cons.2 ⟨kind, _, h, rfl⟩
    next =>
      split at sum
      next same =>
        obtain ⟨d, added, sum⟩ := Outcome.bind_eq_ok.1 sum
        cases sum
        have total : d.action = t.2.action + c.action := Coeff.action_add added
        refine acts_cons.2 ⟨(Coeff.kind_add added).1.symm.trans first, B, later, ?_⟩
        rw [total, same, smul_add, add_right_comm]
      next =>
        obtain ⟨ws, added, sum⟩ := Outcome.bind_eq_ok.1 sum
        cases sum
        exact acts_cons.2 ⟨first, _, ih later added, (add_assoc _ _ _).symm⟩

theorem Acts.addAll (sorted : ts.Descending) (h : ts.Acts z k A) (hu : us.Acts z k B)
    (sum : us.foldlM (fun sum t => Terms.add t.1 t.2 sum) ts = .ok vs) : vs.Descending ∧ vs.Acts z k (A + B) := by
  induction us generalizing ts A B with
  | nil =>
    cases sum
    obtain rfl : 0 = B := hu.2
    rw [add_zero]
    exact ⟨sorted, h⟩
  | cons t us ih =>
    obtain ⟨first, C, later, rfl⟩ := acts_cons.1 hu
    rw [List.foldlM_cons] at sum
    obtain ⟨ws, added, sum⟩ := Outcome.bind_eq_ok.1 sum
    rw [← add_assoc]
    exact ih (descending_add sorted added) (h.add first added) later sum

theorem Acts.neg (h : ts.Acts z k A) : Acts z k (-A) (ts.map fun t => (t.1, t.2.neg)) := by
  induction ts generalizing A with
  | nil =>
    obtain rfl : 0 = A := h.2
    rw [neg_zero]
    exact .nil
  | cons t ts ih =>
    obtain ⟨first, B, later, rfl⟩ := acts_cons.1 h
    refine acts_cons.2 ⟨t.2.kind_neg.trans first, _, ih later, ?_⟩
    rw [Coeff.action_neg, smul_neg, neg_add]

/-- Quotients by a number that is not zero. -/
theorem Acts.divide {y : Gaussian} (nonzero : y ≠ 0) (h : ts.Acts z k A)
    (run : (ts.mapM fun t => do return (t.1, ← t.2.divide (.scalar y)) : Outcome Terms) = .ok us) :
    us.Acts z k (y⁻¹ • A) ∧ us.map Prod.fst = ts.map Prod.fst := by
  induction ts generalizing A us with
  | nil =>
    cases run
    obtain rfl : 0 = A := h.2
    rw [smul_zero]
    exact ⟨.nil, rfl⟩
  | cons t ts ih =>
    obtain ⟨first, B, later, rfl⟩ := acts_cons.1 h
    rw [List.mapM_cons] at run
    obtain ⟨s, step, run⟩ := Outcome.bind_eq_ok.1 run
    obtain ⟨ws, rest, run⟩ := Outcome.bind_eq_ok.1 run
    obtain ⟨d, quotient, pair⟩ := Outcome.bind_eq_ok.1 step
    cases run
    cases pair
    obtain ⟨acts, powers⟩ := ih later rest
    obtain ⟨kind, action⟩ := Coeff.divide_scalar nonzero quotient
    refine ⟨acts_cons.2 ⟨kind.trans first, _, acts, ?_⟩, ?_⟩
    · rw [action, smul_add, smul_comm (z ^ t.1)]
    · rw [List.map_cons, List.map_cons, powers]

theorem Acts.addProducts (sorted : ts.Descending) (h : ts.Acts z m A) (hu : us.Acts z l B)
    (kinds : Kind.mul c.kind l = some m) (run : Poly.addProducts ts (n, c) us = .ok vs) :
    vs.Descending ∧ vs.Acts z m (A + z ^ n • c.action * B) := by
  induction us generalizing ts A B with
  | nil =>
    cases run
    obtain rfl : 0 = B := hu.2
    rw [mul_zero, add_zero]
    exact ⟨sorted, h⟩
  | cons t us ih =>
    obtain ⟨first, C, later, rfl⟩ := acts_cons.1 hu
    rw [Poly.addProducts, List.foldlM_cons] at run
    obtain ⟨ws, step, run⟩ := Outcome.bind_eq_ok.1 run
    obtain ⟨d, product, added⟩ := Outcome.bind_eq_ok.1 step
    have kind : d.kind = m := by
      have both := Coeff.kind_mul product
      rw [first, kinds] at both
      exact (Option.some.inj both).symm
    have term : z ^ (n + t.1) • d.action = z ^ n • c.action * z ^ t.1 • t.2.action := by
      rw [Coeff.action_mul product, smul_mul_smul_comm, pow_add]
    have next := h.add kind added
    rw [term] at next
    rw [mul_add, ← add_assoc]
    exact ih (descending_add sorted added) next later run

theorem Acts.addAllProducts (sorted : ts.Descending) {ss : Terms} {S : Action} (h : ts.Acts z m S)
    (hs : ss.Acts z k A) (hu : us.Acts z l B) (kinds : Kind.mul k l = some m)
    (run : ss.foldlM (fun sum s => Poly.addProducts sum s us) ts = .ok vs) :
    vs.Descending ∧ vs.Acts z m (S + A * B) := by
  induction ss generalizing ts S A with
  | nil =>
    cases run
    obtain rfl : 0 = A := hs.2
    rw [zero_mul, add_zero]
    exact ⟨sorted, h⟩
  | cons s ss ih =>
    obtain ⟨first, C, later, rfl⟩ := acts_cons.1 hs
    rw [List.foldlM_cons] at run
    obtain ⟨ws, step, run⟩ := Outcome.bind_eq_ok.1 run
    obtain ⟨sorted, next⟩ := h.addProducts sorted hu (first ▸ kinds) step
    rw [add_mul, ← add_assoc]
    exact ih sorted next later run

end Terms

/-! ## Polynomials -/

namespace Poly

variable {p q r : Poly} {z : Gaussian} {k l m : Kind} {A B : Action} {x : Text}

/-- The coefficients are of one kind, and the polynomial acts as `A` at `z`. -/
def Acts (z : Gaussian) (k : Kind) (A : Action) (p : Poly) : Prop := p.terms.Acts z k A

theorem ofTerms_acts {ts : Terms} (sorted : ts.Descending) (h : ts.Acts z k A) : (ofTerms x ts).Acts z k A := by
  show ts.normal.Acts z k A
  rw [Terms.normal_of_descending sorted]
  exact h.nonzero

theorem constant_acts (c : Coeff) : (constant x c).Acts z c.kind c.action := by
  have single := Terms.Acts.single (z := z) 0 c
  rw [pow_zero, one_smul] at single
  exact ofTerms_acts (List.pairwise_singleton _ _) single

theorem Acts.add (hp : p.Acts z k A) (hq : q.Acts z k B) (h : p.add q = .ok r) : r.Acts z k (A + B) := by
  obtain ⟨ts, sum, h⟩ := Outcome.bind_eq_ok.1 h
  obtain ⟨y, -, h⟩ := Outcome.bind_eq_ok.1 h
  cases h
  obtain ⟨sorted, acts⟩ := Terms.Acts.addAll p.descending hp hq sum
  exact ofTerms_acts sorted acts

/-- The opposite has as many terms. -/
theorem neg_terms (p : Poly) : p.neg.terms = p.terms.map fun t => (t.1, t.2.neg) := by
  have sorted : Terms.Descending (p.terms.map fun t => (t.1, t.2.neg)) := List.pairwise_map.2 p.descending
  show Terms.normal _ = _
  rw [Terms.normal_of_descending sorted]
  refine List.filter_eq_self.2 (List.forall_mem_map.2 fun t mem => ?_)
  rw [Coeff.isZero_neg, p.nonzero t mem]
  rfl

theorem Acts.neg (hp : p.Acts z k A) : p.neg.Acts z k (-A) := by
  rw [Acts, neg_terms]
  exact Terms.Acts.neg hp

theorem Acts.mul (hp : p.Acts z k A) (hq : q.Acts z l B) (kinds : Kind.mul k l = some m) (h : p.mul q = .ok r) :
    r.Acts z m (A * B) := by
  obtain ⟨ts, product, h⟩ := Outcome.bind_eq_ok.1 h
  obtain ⟨y, -, h⟩ := Outcome.bind_eq_ok.1 h
  cases h
  obtain ⟨sorted, acts⟩ := Terms.Acts.addAllProducts List.Pairwise.nil .nil hp hq kinds product
  rw [zero_add] at acts
  exact ofTerms_acts sorted acts

theorem Acts.divide {y : Gaussian} (nonzero : y ≠ 0) (hp : p.Acts z k A)
    (h : p.mapCoeffs (·.divide (.scalar y)) = .ok r) : r.Acts z k (y⁻¹ • A) := by
  obtain ⟨ts, quotient, h⟩ := Outcome.bind_eq_ok.1 h
  cases h
  obtain ⟨acts, powers⟩ := Terms.Acts.divide nonzero hp quotient
  refine ofTerms_acts ?_ acts
  have sorted : (p.terms.map Prod.fst).Pairwise fun i j => j < i := List.pairwise_map.2 p.descending
  rw [← powers] at sorted
  exact List.pairwise_map.1 sorted

/-- A polynomial without the variable has no terms, or is a coefficient that acts as it does. -/
theorem Acts.of_isConstant (hp : p.Acts z k A) (constant : p.isConstant = true) :
    (p.terms = [] ∧ p.coefficient 0 = .scalar 0 ∧ A = 0) ∨
      ((p.coefficient 0).kind = k ∧ (p.coefficient 0).action = A) := by
  have whole : monomial p.var 0 (p.coefficient 0) = p := monomial_of_isConstant constant
  cases zero : (p.coefficient 0).isZero with
  | true =>
    have terms : p.terms = [] := by
      rw [← whole, monomial_of_isZero zero]
      rfl
    have sum := hp.2
    rw [terms] at sum
    refine .inl ⟨terms, ?_, sum.symm⟩
    rw [coefficient, terms]
    rfl
  | false =>
    have terms : p.terms = [(0, p.coefficient 0)] := by
      rw [← monomial_terms_of_ne (x := p.var) zero, whole]
    have acts : p.terms.Acts z k A := hp
    rw [terms, Terms.acts_cons] at acts
    obtain ⟨kind, B, rest, sum⟩ := acts
    obtain rfl : 0 = B := rest.2
    rw [pow_zero, one_smul, add_zero] at sum
    exact .inr ⟨kind, sum⟩

/-- Squaring gives the power of the action, of the kind of the base. -/
theorem Acts.powerOnto {n : Nat} (ha : p.Acts z k A) (hb : q.Acts z l B) (into : Kind.mul k l = some l)
    (square : Kind.mul l l = some l) (positive : n ≠ 0) (h : powerOnto p q n = .ok r) : r.Acts z l (A * B ^ n) := by
  induction n using Nat.strongRecOn generalizing p q k A B with
  | ind n ih =>
    rw [powerOnto_of_ne_zero p q positive] at h
    obtain ⟨c, accumulated, h⟩ := Outcome.bind_eq_ok.1 h
    obtain ⟨d, squared, h⟩ := Outcome.bind_eq_ok.1 h
    by_cases last : n / 2 = 0
    · -- The exponent is one, and the base is multiplied in.
      obtain rfl : n = 1 := by omega
      rw [if_pos (by decide)] at accumulated
      rw [last, Poly.powerOnto, dif_pos rfl] at h
      cases h
      rw [pow_one]
      exact ha.mul hb into accumulated
    · rw [if_neg last] at squared
      have hd : d.Acts z l (B * B) := hb.mul hb square squared
      rcases Nat.mod_two_eq_zero_or_one n with even | odd
      · rw [even, if_neg (by decide)] at accumulated
        cases accumulated
        have whole : A * (B * B) ^ (n / 2) = A * B ^ n := by
          rw [← pow_two, ← pow_mul]
          congr 2
          omega
        rw [← whole]
        exact ih (n / 2) (by omega) ha hd into last h
      · rw [if_pos odd] at accumulated
        have whole : A * B * (B * B) ^ (n / 2) = A * B ^ n := by
          rw [← pow_two, ← pow_mul, mul_assoc, ← pow_succ']
          congr 2
          omega
        rw [← whole]
        exact ih (n / 2) (by omega) (ha.mul hb into accumulated) hd square last h

theorem Acts.power {n : Nat} (hp : p.Acts z k A) (square : Kind.mul k k = some k) (positive : n ≠ 0)
    (h : p.power n = .ok r) : r.Acts z k (A ^ n) := by
  have one : (constant p.var (.ofRat 1)).Acts z none 1 := by
    have acts := constant_acts (x := p.var) (z := z) (.ofRat 1)
    rwa [show (Coeff.ofRat 1).action = 1 from one_smul Gaussian (1 : Action)] at acts
  have raised := one.powerOnto hp (Kind.none_mul k) square positive h
  rwa [one_mul] at raised

end Poly

end Reckoner
