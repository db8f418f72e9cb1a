import Reckoner.Proofs.Poly.Coeff
import Reckoner.Proofs.Poly.Power
import Reckoner.Proofs.Value.Variable
/-!
# Monomials

A coefficient times a power of the variable, where the coefficient may be a number or a matrix. Adding a monomial to a
polynomial is adding its coefficient at its power, and products and quotients by constants are those of the coefficients.
-/

namespace Reckoner

/-! ## Terms -/

namespace Terms

variable {ts us : Terms} {n : Nat} {c : Coeff}

theorem sorted_of_descending (h : Descending ts) : sorted ts = ts := by
  induction ts with
  | nil => rfl
  | cons t rest ih =>
    obtain ⟨below, tail⟩ := List.pairwise_cons.1 h
    show insert t.1 t.2 (sorted rest) = _
    rw [ih tail]
    cases rest with
    | nil => rfl
    | cons s rest => exact if_pos (below s List.mem_cons_self)

/-- The terms that are not zero. -/
def nonzero (ts : Terms) : Terms := ts.filter fun t => !t.2.isZero

theorem nonzero_cons_of_isZero {t : Nat × Coeff} (zero : t.2.isZero = true) : nonzero (t :: ts) = nonzero ts :=
  List.filter_cons_of_neg (by simp [zero])

theorem nonzero_cons {t : Nat × Coeff} (present : t.2.isZero = false) : nonzero (t :: ts) = t :: nonzero ts :=
  List.filter_cons_of_pos (by simp [present])

theorem nonzero_cons_congr {t : Nat × Coeff} (h : nonzero ts = nonzero us) : nonzero (t :: ts) = nonzero (t :: us) := by
  cases zero : t.2.isZero with
  | true => rw [nonzero_cons_of_isZero zero, nonzero_cons_of_isZero zero, h]
  | false => rw [nonzero_cons zero, nonzero_cons zero, h]

theorem nonzero_nonzero (ts : Terms) : nonzero (nonzero ts) = nonzero ts := by
  simp [nonzero]

theorem normal_of_descending (h : Descending ts) : normal ts = nonzero ts := by
  rw [normal, sorted_of_descending h, nonzero]

theorem normal_normal (ts : Terms) : normal (normal ts) = normal ts := by
  rw [normal_of_descending (descending_normal ts)]
  exact List.filter_eq_self.2 fun t mem => by simp [nonzero_of_mem_normal mem]

theorem add_of_below (below : ∀ t ∈ ts, t.1 < n) : add n c ts = .ok ((n, c) :: ts) := by
  cases ts with
  | nil => rfl
  | cons t rest => exact if_pos (below t List.mem_cons_self)

theorem mem_add (sum : add n c ts = .ok us) {u : Nat × Coeff} (mem : u ∈ us) : u.1 = n ∨ ∃ t ∈ ts, t.1 = u.1 := by
  induction ts generalizing us with
  | nil =>
    cases sum
    exact .inl (by rw [List.mem_singleton.1 mem])
  | cons t rest ih =>
    rw [add] at sum
    split at sum
    · cases sum
      rcases List.mem_cons.1 mem with rfl | mem
      · exact .inl rfl
      · exact .inr ⟨u, mem, rfl⟩
    · split at sum
      next same =>
        obtain ⟨d, -, sum⟩ := Outcome.bind_eq_ok.1 sum
        cases sum
        rcases List.mem_cons.1 mem with rfl | mem
        · exact .inl rfl
        · exact .inr ⟨u, List.mem_cons_of_mem _ mem, rfl⟩
      · obtain ⟨vs, later, sum⟩ := Outcome.bind_eq_ok.1 sum
        cases sum
        rcases List.mem_cons.1 mem with rfl | mem
        · exact .inr ⟨u, List.mem_cons_self, rfl⟩
        · rcases ih later mem with same | ⟨s, found, eq⟩
          · exact .inl same
          · exact .inr ⟨s, List.mem_cons_of_mem _ found, eq⟩

theorem descending_add (h : Descending ts) (sum : add n c ts = .ok us) : Descending us := by
  induction ts generalizing us with
  | nil =>
    cases sum
    exact List.pairwise_singleton _ _
  | cons t rest ih =>
    obtain ⟨below, tail⟩ := List.pairwise_cons.1 h
    rw [add] at sum
    split at sum
    next high =>
      cases sum
      refine List.pairwise_cons.2 ⟨List.forall_mem_cons.2 ⟨high, fun s mem => (below s mem).trans high⟩, h⟩
    next notHigh =>
      split at sum
      next same =>
        obtain ⟨d, -, sum⟩ := Outcome.bind_eq_ok.1 sum
        cases sum
        exact List.pairwise_cons.2 ⟨fun s mem => same ▸ below s mem, tail⟩
      next other =>
        obtain ⟨vs, later, sum⟩ := Outcome.bind_eq_ok.1 sum
        cases sum
        refine List.pairwise_cons.2 ⟨fun u mem => ?_, ih tail later⟩
        rcases mem_add later mem with rfl | ⟨s, found, eq⟩
        · omega
        · rw [← eq]
          exact below s found

/-- Whether there are zeros among the terms does not matter for a sum. -/
theorem add_nonzero (h : Descending ts) (sum : add n c ts = .ok us) :
    ∃ vs, add n c (nonzero ts) = .ok vs ∧ nonzero vs = nonzero us := by
  induction ts generalizing us with
  | nil => exact ⟨us, sum, rfl⟩
  | cons t rest ih =>
    obtain ⟨below, tail⟩ := List.pairwise_cons.1 h
    rw [add] at sum
    split at sum
    next high =>
      cases sum
      have all : ∀ s ∈ t :: rest, s.1 < n := List.forall_mem_cons.2 ⟨high, fun s mem => (below s mem).trans high⟩
      exact ⟨_, add_of_below fun s mem => all s (List.mem_of_mem_filter mem), nonzero_cons_congr (nonzero_nonzero _)⟩
    next notHigh =>
      split at sum
      next same =>
        obtain ⟨d, added, sum⟩ := Outcome.bind_eq_ok.1 sum
        cases sum
        cases zero : t.2.isZero with
        | true =>
          -- The term was left out, and the sum at its power is what is added.
          have lower : ∀ s ∈ nonzero rest, s.1 < n := fun s mem => same ▸ below s (List.mem_of_mem_filter mem)
          rw [Coeff.isZero_add zero added, nonzero_cons_of_isZero zero]
          exact ⟨_, add_of_below lower, nonzero_cons_congr (nonzero_nonzero _)⟩
        | false =>
          rw [nonzero_cons zero, add, if_neg notHigh, if_pos same, added]
          exact ⟨_, rfl, nonzero_cons_congr (nonzero_nonzero _)⟩
      next other =>
        obtain ⟨ws, added, sum⟩ := Outcome.bind_eq_ok.1 sum
        cases sum
        obtain ⟨vs, run, same⟩ := ih tail added
        cases zero : t.2.isZero with
        | true =>
          rw [nonzero_cons_of_isZero zero, nonzero_cons_of_isZero zero]
          exact ⟨vs, run, same⟩
        | false =>
          rw [nonzero_cons zero, add, if_neg notHigh, if_neg other, run]
          exact ⟨t :: vs, rfl, nonzero_cons_congr same⟩

/-- Adding a zero changes no term that counts. -/
theorem nonzero_of_add_isZero (zero : c.isZero = true) (sum : add n c ts = .ok us) : nonzero us = nonzero ts := by
  induction ts generalizing us with
  | nil =>
    cases sum
    exact nonzero_cons_of_isZero zero
  | cons t rest ih =>
    rw [add] at sum
    split at sum
    · cases sum
      exact nonzero_cons_of_isZero zero
    · split at sum
      next same =>
        obtain ⟨d, added, sum⟩ := Outcome.bind_eq_ok.1 sum
        cases sum
        obtain ⟨m, e⟩ := t
        obtain rfl : m = n := same
        rw [Coeff.add_isZero zero added]
      · obtain ⟨ws, added, sum⟩ := Outcome.bind_eq_ok.1 sum
        cases sum
        exact nonzero_cons_congr (ih added)

end Terms

/-! ## Polynomials -/

namespace Poly

variable {x : Text} {ts us : Terms} {n m : Nat} {c d r : Coeff}

theorem ext_terms {p q : Poly} (var : p.var = q.var) (terms : p.terms = q.terms) : p = q := by
  obtain ⟨_, _, _, _⟩ := p
  obtain ⟨_, _, _, _⟩ := q
  cases var
  cases terms
  rfl

theorem ofTerms_congr (h : ts.normal = us.normal) : ofTerms x ts = ofTerms x us := ext_terms rfl h

theorem ofTerms_terms (p : Poly) : ofTerms p.var p.terms = p := by
  refine ext_terms rfl ?_
  show p.terms.normal = p.terms
  rw [Terms.normal_of_descending p.descending]
  exact List.filter_eq_self.2 fun t mem => by simp [p.nonzero t mem]

/-- A coefficient times a power of the variable. -/
def monomial (x : Text) (n : Nat) (c : Coeff) : Poly := ofTerms x [(n, c)]

theorem monomial_terms (x : Text) (n : Nat) (c : Coeff) : (monomial x n c).terms = Terms.nonzero [(n, c)] :=
  Terms.normal_of_descending (List.pairwise_singleton _ _)

theorem monomial_of_isZero (zero : c.isZero = true) : monomial x n c = ofTerms x [] :=
  ext_terms rfl ((monomial_terms x n c).trans (Terms.nonzero_cons_of_isZero zero))

theorem monomial_terms_of_ne (present : c.isZero = false) : (monomial x n c).terms = [(n, c)] :=
  (monomial_terms x n c).trans (Terms.nonzero_cons present)

theorem sharedVar_of_eq {p q : Poly} (hp : p.var = x) (hq : q.var = x) : p.sharedVar q = .ok x := by
  rw [sharedVar, if_pos (.inl (hp.trans hq.symm)), hp]

/-- Adding a monomial is adding its coefficient at its power. -/
theorem ofTerms_add (h : ts.Descending) (sum : Terms.add n c ts = .ok us) :
    (ofTerms x ts).add (monomial x n c) = .ok (ofTerms x us) := by
  have kept : (ofTerms x ts).terms = ts.nonzero := Terms.normal_of_descending h
  have kept' : us.normal = us.nonzero := Terms.normal_of_descending (Terms.descending_add h sum)
  rw [Poly.add, sharedVar_of_eq (x := x) rfl rfl, kept]
  cases zero : c.isZero with
  | true =>
    rw [monomial_of_isZero zero]
    refine congrArg Except.ok (ofTerms_congr ?_)
    rw [kept', Terms.nonzero_of_add_isZero zero sum, ← Terms.normal_of_descending h, Terms.normal_normal]
  | false =>
    obtain ⟨vs, run, same⟩ := Terms.add_nonzero h sum
    have sorted : (Terms.nonzero ts).Descending := h.filter _
    rw [monomial_terms_of_ne zero, List.foldlM_cons, run]
    refine congrArg Except.ok (ofTerms_congr ?_)
    rw [kept', ← same, Terms.normal_of_descending (Terms.descending_add sorted run)]

theorem monomial_mul (h : c.mul d = .ok r) : (monomial x n c).mul (monomial x m d) = .ok (monomial x (n + m) r) := by
  rw [Poly.mul, sharedVar_of_eq (x := x) rfl rfl]
  cases zero : c.isZero with
  | true =>
    rw [monomial_of_isZero zero, monomial_of_isZero (Coeff.isZero_mul zero h)]
    rfl
  | false =>
    cases zero' : d.isZero with
    | true =>
      rw [monomial_terms_of_ne zero, monomial_of_isZero zero', monomial_of_isZero (Coeff.mul_isZero zero' h)]
      rfl
    | false =>
      rw [monomial_terms_of_ne zero, monomial_terms_of_ne zero', List.foldlM_cons, addProducts, List.foldlM_cons, h]
      rfl

theorem monomial_divide (h : c.divide d = .ok r) : (monomial x n c).mapCoeffs (·.divide d) = .ok (monomial x n r) := by
  rw [mapCoeffs]
  cases zero : c.isZero with
  | true =>
    rw [monomial_of_isZero zero, monomial_of_isZero (Coeff.isZero_divide zero h)]
    rfl
  | false =>
    rw [monomial_terms_of_ne zero, List.mapM_cons, h]
    rfl

theorem monomial_neg (x : Text) (n : Nat) (c : Coeff) : (monomial x n c).neg = monomial x n c.neg := by
  rw [Poly.neg]
  cases zero : c.isZero with
  | true =>
    rw [monomial_of_isZero zero, monomial_of_isZero (c.isZero_neg.trans zero)]
    rfl
  | false =>
    rw [monomial_terms_of_ne zero]
    rfl

/-! ### Constants -/

theorem isConstant_monomial_zero (x : Text) (c : Coeff) : (monomial x 0 c).isConstant = true := by
  cases zero : c.isZero with
  | true =>
    rw [monomial_of_isZero zero]
    rfl
  | false =>
    rw [isConstant, degree, monomial_terms_of_ne zero]
    rfl

theorem coefficient_monomial_zero (x : Text) (present : c.isZero = false) : (monomial x 0 c).coefficient 0 = c := by
  rw [coefficient, monomial_terms_of_ne present]
  rfl

/-- A polynomial without the variable is its constant term. -/
theorem monomial_of_isConstant {p : Poly} (h : p.isConstant = true) : monomial p.var 0 (p.coefficient 0) = p := by
  have level : p.degree = 0 := beq_iff_eq.1 h
  cases terms : p.terms with
  | nil =>
    have none : p.coefficient 0 = Coeff.ofRat 0 := by
      rw [coefficient, terms]
      rfl
    rw [none, monomial_of_isZero rfl, ← terms, ofTerms_terms]
  | cons t rest =>
    obtain ⟨n, c⟩ := t
    obtain rfl : n = 0 := by simpa [degree, terms] using level
    have sorted := p.descending
    rw [terms] at sorted
    obtain rfl : rest = [] := List.eq_nil_iff_forall_not_mem.2 fun s mem =>
      Nat.not_lt_zero _ ((List.pairwise_cons.1 sorted).1 s mem)
    have single : p.coefficient 0 = c := by
      rw [coefficient, terms]
      rfl
    rw [single, monomial, ← terms, ofTerms_terms]

open Polynomial in
/-- A power of the variable. -/
theorem identity_power (x : Text) (n : Nat) : (identity x).power n = .ok (monomial x n (Coeff.ofRat 1)) := by
  have first : (identity x).Denotes x (Polynomial.monomial 1 1) := ofTerms_denotes (Terms.Expands.single 1 1)
  obtain ⟨p, run, denotes⟩ := first.power n
  have power : (monomial x n (Coeff.ofRat 1)).Denotes x (Polynomial.monomial n 1) :=
    ofTerms_denotes (Terms.Expands.single n 1)
  rw [Polynomial.monomial_pow, one_mul, one_pow] at denotes
  rw [run, ext_terms (denotes.1.trans power.1.symm) (denotes.terms_eq power)]

end Poly

end Reckoner
