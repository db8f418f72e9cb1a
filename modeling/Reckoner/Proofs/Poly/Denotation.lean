import Mathlib.Algebra.Polynomial.Degree.Lemmas
import Reckoner.Poly.Basic
import Reckoner.Proofs.Gaussian.Field
import Reckoner.Proofs.Outcome
/-!
# What polynomials denote

A polynomial whose coefficients are numbers denotes an element of Q(i)[X]. Its terms are the nonzero coefficients of
that element and no others, so the element determines the terms, and the arithmetic on terms is the one of Q(i)[X].
-/

namespace Reckoner

open Polynomial

/-! ## Terms -/

namespace Terms

/-- Every power is below a bound. -/
def Below (top : Nat) (ts : Terms) : Prop := ∀ t ∈ ts, t.1 < top

theorem Below.nil {top : Nat} : Below top [] := List.forall_mem_nil _

theorem Below.cons {top n : Nat} {c : Coeff} {ts : Terms} (first : n < top) (later : Below top ts) :
    Below top ((n, c) :: ts) := List.forall_mem_cons.2 ⟨first, later⟩

theorem Below.tail {top : Nat} {t : Nat × Coeff} {ts : Terms} (h : Below top (t :: ts)) : Below top ts :=
  (List.forall_mem_cons.1 h).2

/-- Terms in descending order, with numbers as coefficients, that add up to a polynomial. Coefficients may be zero. -/
inductive Expands : Terms → Gaussian[X] → Prop where
  | nil : Expands [] 0
  | cons {n z rest f} : Below n rest → Expands rest f → Expands ((n, .scalar z) :: rest) (monomial n z + f)

namespace Expands

variable {ts us : Terms} {f g : Gaussian[X]}

theorem single (n : Nat) (z : Gaussian) : Expands [(n, .scalar z)] (monomial n z) := by
  simpa using cons .nil nil

/-- A power without a term has coefficient zero. -/
theorem coeff_eq_zero (h : Expands ts f) {n : Nat} (absent : ∀ t ∈ ts, t.1 ≠ n) : f.coeff n = 0 := by
  induction h with
  | nil => exact coeff_zero n
  | cons _ _ ih =>
    obtain ⟨first, later⟩ := List.forall_mem_cons.1 absent
    rw [coeff_add, coeff_monomial, if_neg first, ih later, add_zero]

/-- A term carries the coefficient at its power. -/
theorem eq_coeff (h : Expands ts f) {n : Nat} {c : Coeff} (mem : (n, c) ∈ ts) : c = .scalar (f.coeff n) := by
  induction h with
  | nil => cases mem
  | @cons m z rest f below rest_f ih =>
    rcases List.mem_cons.1 mem with first | later
    · cases first
      rw [coeff_add, coeff_monomial, if_pos rfl, rest_f.coeff_eq_zero fun t ht => (below t ht).ne, add_zero]
    · rw [coeff_add, coeff_monomial, if_neg (below _ later).ne', zero_add]
      exact ih later

/-- Terms in descending order with numbers as coefficients add up to something. -/
theorem exists_of_scalar (sorted : Descending ts) (scalar : ∀ t ∈ ts, ∃ z, t.2 = .scalar z) : ∃ f, Expands ts f := by
  induction ts with
  | nil => exact ⟨0, .nil⟩
  | cons t rest ih =>
    obtain ⟨n, c⟩ := t
    obtain ⟨below, tail⟩ := List.pairwise_cons.1 sorted
    obtain ⟨⟨z, rfl⟩, later⟩ := List.forall_mem_cons.1 scalar
    exact (ih tail later).imp' _ fun _ => .cons below

/-! ### Zeros and order -/

theorem sorted_eq (h : Expands ts f) : sorted ts = ts := by
  induction h with
  | nil => rfl
  | @cons n z rest f below _ ih =>
    show insert n (.scalar z) (sorted rest) = _
    rw [ih]
    cases rest with
    | nil => rfl
    | cons t rest => exact if_pos (below t List.mem_cons_self)

theorem filter_nonzero (h : Expands ts f) : Expands (ts.filter fun t => !t.2.isZero) f := by
  induction h with
  | nil => exact .nil
  | @cons n z rest f below _ ih =>
    by_cases zero : z = 0
    · subst zero
      rwa [List.filter_cons_of_neg (by simp [Coeff.isZero]), monomial_zero_right, zero_add]
    · rw [List.filter_cons_of_pos (by simpa [Coeff.isZero] using zero)]
      exact .cons (fun t ht => below t (List.mem_of_mem_filter ht)) ih

theorem normal (h : Expands ts f) : Expands (normal ts) f := by
  rw [Terms.normal, h.sorted_eq]
  exact h.filter_nonzero

/-! ### Sums -/

/-- Adding a number at a power adds its monomial. -/
theorem add (h : Expands ts f) (n : Nat) (z : Gaussian) :
    ∃ us, Terms.add n (.scalar z) ts = .ok us ∧ Expands us (f + monomial n z) ∧
      ∀ top, n < top → Below top ts → Below top us := by
  -- The bound goes along because the first term has to stay above what is added below it.
  induction h with
  | nil =>
    refine ⟨[(n, .scalar z)], rfl, ?_, fun top bound _ => .cons bound .nil⟩
    rw [zero_add]
    exact single n z
  | @cons m w rest f below rest_f ih =>
    rcases lt_trichotomy m n with lower | rfl | higher
    · refine ⟨(n, .scalar z) :: (m, .scalar w) :: rest, if_pos lower, ?_, fun top bound all => .cons bound all⟩
      rw [add_comm _ (monomial n z)]
      exact .cons (.cons lower fun t ht => (below t ht).trans lower) (.cons below rest_f)
    · refine ⟨(m, .scalar (w + z)) :: rest, ?_, ?_, fun top bound all => .cons bound all.tail⟩
      · rw [Terms.add, if_neg (lt_irrefl _), if_pos rfl]
        rfl
      · rw [add_right_comm, ← map_add]
        exact .cons below rest_f
    · obtain ⟨us, sum, expands, bounded⟩ := ih
      refine ⟨(m, .scalar w) :: us, ?_, ?_, fun top bound all =>
        .cons (all _ List.mem_cons_self) (bounded top bound all.tail)⟩
      · rw [Terms.add, if_neg higher.not_gt, if_neg higher.ne', sum]
        rfl
      · rw [add_assoc]
        exact .cons (bounded m higher below) expands

theorem addAll (h : Expands ts f) (hg : Expands us g) :
    ∃ vs, us.foldlM (fun sum t => Terms.add t.1 t.2 sum) ts = .ok vs ∧ Expands vs (f + g) := by
  induction hg generalizing ts f with
  | nil => exact ⟨ts, rfl, by rwa [add_zero]⟩
  | @cons n z rest g _ _ ih =>
    obtain ⟨sum, added, expands, -⟩ := h.add n z
    obtain ⟨vs, run, expands⟩ := ih expands
    refine ⟨vs, ?_, by rwa [← add_assoc]⟩
    rw [List.foldlM_cons, added]
    exact run

/-! ### Products -/

theorem addProducts (h : Expands ts f) (n : Nat) (z : Gaussian) (hg : Expands us g) :
    ∃ vs, Poly.addProducts ts (n, .scalar z) us = .ok vs ∧ Expands vs (f + monomial n z * g) := by
  induction hg generalizing ts f with
  | nil => exact ⟨ts, rfl, by rwa [mul_zero, add_zero]⟩
  | @cons m w rest g _ _ ih =>
    obtain ⟨sum, added, expands, -⟩ := h.add (n + m) (z * w)
    obtain ⟨vs, run, expands⟩ := ih expands
    refine ⟨vs, ?_, by rwa [mul_add, monomial_mul_monomial, ← add_assoc]⟩
    rw [Poly.addProducts, List.foldlM_cons]
    show (Terms.add (n + m) (.scalar (z * w)) ts >>= fun sum => Poly.addProducts sum (n, .scalar z) rest) = _
    rw [added]
    exact run

theorem addAllProducts (h : Expands ts f) {vs : Terms} {k : Gaussian[X]} (hk : Expands vs k) (hg : Expands us g) :
    ∃ ws, vs.foldlM (fun sum s => Poly.addProducts sum s us) ts = .ok ws ∧ Expands ws (f + k * g) := by
  induction hk generalizing ts f with
  | nil => exact ⟨ts, rfl, by rwa [zero_mul, add_zero]⟩
  | @cons n z rest k _ _ ih =>
    obtain ⟨sum, added, expands⟩ := h.addProducts n z hg
    obtain ⟨ws, run, expands⟩ := ih expands
    refine ⟨ws, ?_, by rwa [add_mul, ← add_assoc]⟩
    rw [List.foldlM_cons, added]
    exact run

theorem neg (h : Expands ts f) : Expands (ts.map fun t => (t.1, t.2.neg)) (-f) := by
  induction h with
  | nil => rw [neg_zero]; exact nil
  | @cons n z rest f below _ ih =>
    rw [neg_add, ← map_neg]
    exact .cons (List.forall_mem_map.2 below) ih

/-- Dividing every coefficient by a number that is not zero. -/
theorem divide (h : Expands ts f) {z : Gaussian} (nonzero : z ≠ 0) :
    ∃ us, (ts.mapM fun t => do return (t.1, ← t.2.divide (.scalar z)) : Outcome Terms) = .ok us ∧
      Expands us (f * C z⁻¹) ∧ ∀ top, Below top ts → Below top us := by
  induction h with
  | nil => exact ⟨[], rfl, by rw [zero_mul]; exact nil, fun _ _ => nofun⟩
  | @cons n w rest f below _ ih =>
    obtain ⟨us, run, expands, bounded⟩ := ih
    have quotient : Coeff.divide (.scalar w) (.scalar z) = .ok (.scalar (w * z⁻¹)) := by
      rw [← div_eq_mul_inv, Coeff.divide, Gaussian.divide, if_neg nonzero]
      rfl
    refine ⟨(n, .scalar (w * z⁻¹)) :: us, ?_, ?_, fun top all =>
      .cons (all _ List.mem_cons_self) (bounded top all.tail)⟩
    · rw [List.mapM_cons, run, quotient]
      rfl
    · rw [add_mul, monomial_mul_C]
      exact .cons (bounded n below) expands

end Expands

end Terms

/-! ## Polynomials -/

namespace Poly

/-- The polynomial is one in `x`, and its terms are the nonzero coefficients of an element of Q(i)[X]. -/
def Denotes (p : Poly) (x : Text) (f : Gaussian[X]) : Prop :=
  p.var = x ∧ ∀ n c, (n, c) ∈ p.terms ↔ c = .scalar (f.coeff n) ∧ f.coeff n ≠ 0

variable {p q : Poly} {x : Text} {f g : Gaussian[X]}

/-- Terms that are exactly the nonzero coefficients are terms that add up to the element. -/
theorem denotes_iff : p.Denotes x f ↔ p.var = x ∧ p.terms.Expands f := by
  refine and_congr_right fun _ => ⟨fun h => ?_, fun h n c => ⟨fun mem => ?_, ?_⟩⟩
  · obtain ⟨g, expands⟩ := Terms.Expands.exists_of_scalar p.descending fun t ht => ⟨_, ((h t.1 t.2).1 ht).1⟩
    -- A coefficient that is not zero has its term, and one that is zero has none.
    suffices f = g from this ▸ expands
    ext1 n
    by_cases zero : f.coeff n = 0
    · rw [zero, expands.coeff_eq_zero]
      rintro t ht rfl
      exact ((h t.1 t.2).1 ht).2 zero
    · exact Coeff.scalar.inj (expands.eq_coeff ((h n _).2 ⟨rfl, zero⟩))
  · have value := h.eq_coeff mem
    exact ⟨value, by simpa [value, Coeff.isZero] using p.nonzero _ mem⟩
  · rintro ⟨rfl, nonzero⟩
    have present : ∃ t ∈ p.terms, t.1 = n := by
      by_contra absent
      exact nonzero (h.coeff_eq_zero fun t ht same => absent ⟨t, ht, same⟩)
    obtain ⟨⟨n, c⟩, mem, rfl⟩ := present
    exact h.eq_coeff mem ▸ mem

theorem Denotes.expands (h : p.Denotes x f) : p.terms.Expands f := (denotes_iff.1 h).2

/-- A polynomial whose coefficients are numbers denotes one element. -/
theorem exists_denotes (scalar : ∀ t ∈ p.terms, ∃ z, t.2 = .scalar z) : ∃ f, p.Denotes p.var f :=
  (Terms.Expands.exists_of_scalar p.descending scalar).imp fun _ expands => denotes_iff.2 ⟨rfl, expands⟩

theorem Denotes.unique (hf : p.Denotes x f) (hg : p.Denotes x g) : f = g := by
  ext1 n
  by_cases zero : f.coeff n = 0
  · by_contra differ
    have nonzero : g.coeff n ≠ 0 := fun h => differ (zero.trans h.symm)
    exact ((hf.2 n _).1 ((hg.2 n _).2 ⟨rfl, nonzero⟩)).2 zero
  · exact Coeff.scalar.inj ((hg.2 n _).1 ((hf.2 n _).2 ⟨rfl, zero⟩)).1

/-- Polynomials that denote one element have the same terms. -/
theorem Denotes.terms_eq (hp : p.Denotes x f) (hq : q.Denotes x f) : p.terms = q.terms := by
  have nodup : ∀ r : Poly, r.terms.Nodup := fun r => r.descending.imp fun lt eq => lt.ne (congrArg Prod.fst eq).symm
  refine List.Perm.eq_of_pairwise (fun s t _ _ lt gt => absurd lt gt.not_gt) p.descending q.descending ?_
  exact (List.perm_ext_iff_of_nodup (nodup p) (nodup q)).2 fun ⟨n, c⟩ => (hp.2 n c).trans (hq.2 n c).symm

theorem Denotes.terms_eq_iff (hp : p.Denotes x f) (hq : q.Denotes x g) : p.terms = q.terms ↔ f = g :=
  ⟨fun same => hp.unique (denotes_iff.2 ⟨hp.1, same ▸ hq.expands⟩), fun same => hp.terms_eq (same ▸ hq)⟩

/-! ### Looking -/

theorem Denotes.coefficient_eq (h : p.Denotes x f) (n : Nat) : p.coefficient n = .scalar (f.coeff n) := by
  rw [coefficient]
  cases found : p.terms.lookup n with
  | none =>
    rw [h.expands.coeff_eq_zero fun t ht same => ?_]
    · rfl
    · simpa [same] using List.lookup_eq_none_iff.1 found t ht
  | some c =>
    obtain ⟨before, after, split, -⟩ := List.lookup_eq_some_iff.1 found
    exact h.expands.eq_coeff (split ▸ List.mem_append_right before List.mem_cons_self)

theorem Denotes.degree_eq (h : p.Denotes x f) : p.degree = f.natDegree := by
  have expands := h.expands
  cases terms : p.terms with
  | nil =>
    rw [terms] at expands
    cases expands
    rw [degree, terms, natDegree_zero]
    rfl
  | cons t rest =>
    obtain ⟨n, c⟩ := t
    -- The first term has the highest power, and its coefficient is not zero.
    have first : (n, c) ∈ p.terms := terms ▸ List.mem_cons_self
    have highest : ∀ t ∈ p.terms, t.1 ≤ n := by
      rw [terms]
      exact List.forall_mem_cons.2 ⟨le_rfl, fun t ht => (List.rel_of_pairwise_cons (terms ▸ p.descending) ht).le⟩
    have above : ∀ m, n < m → f.coeff m = 0 := fun m lt => expands.coeff_eq_zero fun t ht =>
      ((highest t ht).trans_lt lt).ne
    rw [degree, terms]
    exact (natDegree_eq_of_le_of_coeff_ne_zero (natDegree_le_iff_coeff_eq_zero.2 above) ((h.2 n c).1 first).2).symm

theorem Denotes.isConstant_iff (h : p.Denotes x f) : p.isConstant = true ↔ f.natDegree = 0 := by
  rw [isConstant, h.degree_eq, beq_iff_eq]

/-! ### Arithmetic -/

theorem ofTerms_denotes {ts : Terms} (h : ts.Expands f) : (ofTerms x ts).Denotes x f := denotes_iff.2 ⟨rfl, h.normal⟩

theorem constant_denotes (z : Gaussian) : (constant x (.scalar z)).Denotes x (C z) :=
  ofTerms_denotes (Terms.Expands.single 0 z)

theorem Denotes.add (hp : p.Denotes x f) (hq : q.Denotes x g) : ∃ r, p.add q = .ok r ∧ r.Denotes x (f + g) := by
  obtain ⟨ts, run, expands⟩ := hp.expands.addAll hq.expands
  refine ⟨ofTerms x ts, ?_, ofTerms_denotes expands⟩
  rw [Poly.add, run, sharedVar, if_pos (.inl (hp.1.trans hq.1.symm)), hp.1]
  rfl

theorem Denotes.neg (h : p.Denotes x f) : p.neg.Denotes x (-f) := by
  rw [Poly.neg, h.1]
  exact ofTerms_denotes h.expands.neg

theorem Denotes.mul (hp : p.Denotes x f) (hq : q.Denotes x g) : ∃ r, p.mul q = .ok r ∧ r.Denotes x (f * g) := by
  obtain ⟨ts, run, expands⟩ := Terms.Expands.nil.addAllProducts hp.expands hq.expands
  rw [zero_add] at expands
  refine ⟨ofTerms x ts, ?_, ofTerms_denotes expands⟩
  rw [Poly.mul, run, sharedVar, if_pos (.inl (hp.1.trans hq.1.symm)), hp.1]
  rfl

theorem Denotes.divide (h : p.Denotes x f) {z : Gaussian} (nonzero : z ≠ 0) :
    ∃ r, p.mapCoeffs (·.divide (.scalar z)) = .ok r ∧ r.Denotes x (f * C z⁻¹) := by
  obtain ⟨ts, run, expands, -⟩ := h.expands.divide nonzero
  refine ⟨ofTerms x ts, ?_, ofTerms_denotes expands⟩
  rw [mapCoeffs, run, h.1]
  rfl

end Poly

end Reckoner
