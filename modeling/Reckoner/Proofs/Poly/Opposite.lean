import Mathlib.Data.List.Perm.Basic
import Mathlib.Tactic.Ring
import Reckoner.Poly.Roots
import Reckoner.Proofs.Poly.Action
import Reckoner.Proofs.Rational.Rounding
/-!
# Opposite polynomials

Taking one polynomial from another and the other from the one gives opposite terms, or fails both times. Opposite
polynomials have the same solutions: opposite coefficients leave a linear root and the discriminant as they are, so that
whatever root of the discriminant is taken, the two roots of a quadratic equation are at most exchanged, also where they are
rounded.
-/

namespace Reckoner

/-! ## Coefficients -/

namespace Mat

variable {a b m : Mat} {operation : String} {f g : Gaussian → Gaussian → Gaussian} {k : Gaussian → Gaussian}

theorem zipWith_swap (operation' : String) (cells : ∀ y z, g z y = k (f y z)) (h : zipWith operation f a b = .ok m) :
    zipWith operation' g b a = .ok (m.map k) := by
  unfold zipWith at h
  split at h
  next fit =>
    cases h
    obtain ⟨r, c, _, _, l⟩ := a
    obtain ⟨r', c', _, _, l'⟩ := b
    obtain rfl : r' = r := fit.1
    obtain rfl : c' = c := fit.2
    refine (dif_pos ⟨rfl, rfl⟩).trans ?_
    simp only [map, Grid.resize_rfl]
    congr 2
    exact Grid.ext_cell fun i j => by simp [Grid.zipWith, cells]
  · cases h

theorem add_swap (h : a.add b = .ok m) : b.add a = .ok m := by
  have same : m.map id = m := congrArg (Mat.mk _ _ _ _) (Grid.ext_cell fun i j => by simp)
  have swapped : b.add a = .ok (m.map id) := zipWith_swap _ (fun y z => add_comm z y) h
  rwa [same] at swapped

theorem sub_swap (h : a.sub b = .ok m) : b.sub a = .ok m.neg := zipWith_swap _ (fun y z => (neg_sub y z).symm) h

theorem add_opposites (h : a.add b = .ok m) : a.neg.add b.neg = .ok m.neg := by
  obtain ⟨height, width, rfl⟩ := add_eq_ok h
  obtain ⟨r, c, _, _, l⟩ := a
  obtain ⟨r', c', _, _, l'⟩ := b
  obtain rfl : r' = r := height
  obtain rfl : c' = c := width
  refine (dif_pos ⟨rfl, rfl⟩).trans ?_
  simp only [neg, map, Grid.resize_rfl]
  congr 2
  exact Grid.ext_cell fun i j => by simp [Grid.zipWith, add_comm]

end Mat

namespace Coeff

variable {a b c : Coeff}

theorem add_swap (h : a.add b = .ok c) : b.add a = .ok c := by
  cases a <;> cases b
  case scalar.scalar y z =>
    cases h
    rw [add, add_comm]
  case matrix.matrix l m =>
    obtain ⟨_, sum, rfl⟩ := matrix_of_map h
    rw [add, Mat.add_swap sum]
    rfl
  all_goals cases h

theorem add_opposites (h : a.add b = .ok c) : a.neg.add b.neg = .ok c.neg := by
  cases a <;> cases b
  case scalar.scalar y z =>
    cases h
    rw [neg, neg, neg, add, neg_add]
  case matrix.matrix l m =>
    obtain ⟨_, sum, rfl⟩ := matrix_of_map h
    rw [neg, neg, add, Mat.add_opposites sum]
    rfl
  all_goals cases h

end Coeff

/-! ## Terms -/

namespace Terms

/-- The sum of two lists with descending powers as a merge of them, in which terms of one power are added. -/
inductive Merges : Terms → Terms → Terms → Prop where
  | nil : Merges [] [] []
  | left {t : Nat × Coeff} {ts us vs : Terms} : Below t.1 us → Merges ts us vs → Merges (t :: ts) us (t :: vs)
  | right {u : Nat × Coeff} {ts us vs : Terms} : Below u.1 ts → Merges ts us vs → Merges ts (u :: us) (u :: vs)
  | both {n : Nat} {a b c : Coeff} {ts us vs : Terms} :
      a.add b = .ok c → Merges ts us vs → Merges ((n, a) :: ts) ((n, b) :: us) ((n, c) :: vs)

variable {ts us vs : Terms} {t u : Nat × Coeff} {n : Nat} {a b c : Coeff}

theorem Merges.swap (h : Merges ts us vs) : Merges us ts vs := by
  induction h with
  | nil => exact .nil
  | left below _ ih => exact .right below ih
  | right below _ ih => exact .left below ih
  | both sum _ ih => exact .both (Coeff.add_swap sum) ih

/-- The terms with opposite coefficients. -/
def opposite (ts : Terms) : Terms := ts.map fun t => (t.1, t.2.neg)

theorem Below.opposite (h : Below n ts) : Below n ts.opposite := List.forall_mem_map.2 h

theorem Descending.opposite (h : ts.Descending) : ts.opposite.Descending := List.pairwise_map.2 h

theorem opposite_opposite (ts : Terms) : ts.opposite.opposite = ts := by
  simp [opposite, Function.comp_def, Coeff.neg_neg]

theorem nonzero_opposite (ts : Terms) : ts.opposite.nonzero = ts.nonzero.opposite := by
  simp [opposite, nonzero, List.filter_map, Function.comp_def, Coeff.isZero_neg]

theorem lookup_opposite (ts : Terms) (n : Nat) : ts.opposite.lookup n = (ts.lookup n).map Coeff.neg := by
  induction ts with
  | nil => rfl
  | cons t ts ih =>
    show List.lookup n ((t.1, t.2.neg) :: opposite ts) = _
    rw [List.lookup_cons, List.lookup_cons, ih]
    split <;> rfl

theorem Merges.opposite (h : Merges ts us vs) : Merges ts.opposite us.opposite vs.opposite := by
  induction h with
  | nil => exact .nil
  | left below _ ih => exact .left below.opposite ih
  | right below _ ih => exact .right below.opposite ih
  | both sum _ ih => exact .both (Coeff.add_opposites sum) ih

/-! ### Sums are merges -/

/-- The sum of two lists of terms. -/
def addAll (ts us : Terms) : Outcome Terms := us.foldlM (fun sum t => add t.1 t.2 sum) ts

theorem addAll_cons (ts us : Terms) (u : Nat × Coeff) :
    addAll ts (u :: us) = add u.1 u.2 ts >>= fun sum => addAll sum us := List.foldlM_cons

/-- A term above all that is added stays in front. -/
theorem addAll_of_below (below : Below t.1 us) (ts : Terms) : addAll (t :: ts) us = (addAll ts us).map (t :: ·) := by
  induction us generalizing ts with
  | nil => rfl
  | cons u us ih =>
    have lower : u.1 < t.1 := below u List.mem_cons_self
    rw [addAll_cons, addAll_cons, add, if_neg lower.not_gt, if_neg lower.ne']
    cases add u.1 u.2 ts with
    | error e => rfl
    | ok ws => exact ih below.tail ws

theorem addAll_cons_of_below (below : Below u.1 ts) (lower : Below u.1 us) :
    addAll ts (u :: us) = (addAll ts us).map (u :: ·) := by
  rw [addAll_cons, add_of_below below]
  exact addAll_of_below lower ts

theorem addAll_cons_cons (lower : Below n us) (ts : Terms) (a b : Coeff) :
    addAll ((n, a) :: ts) ((n, b) :: us) = a.add b >>= fun c => (addAll ts us).map ((n, c) :: ·) := by
  rw [addAll_cons, add, if_neg (Nat.lt_irrefl n), if_pos rfl]
  cases a.add b with
  | error e => rfl
  | ok c => exact addAll_of_below lower ts

theorem Merges.addAll (h : Merges ts us vs) (sorted : us.Descending) : addAll ts us = .ok vs := by
  induction h with
  | nil => rfl
  | left below _ ih => rw [addAll_of_below below, ih sorted, Except.map]
  | right below _ ih =>
    obtain ⟨lower, sorted⟩ := List.pairwise_cons.1 sorted
    rw [addAll_cons_of_below below lower, ih sorted, Except.map]
  | both sum _ ih =>
    obtain ⟨lower, sorted⟩ := List.pairwise_cons.1 sorted
    rw [addAll_cons_cons lower, sum, ih sorted]
    rfl

theorem merges_nil (ts : Terms) : Merges ts [] ts := by
  induction ts with
  | nil => exact .nil
  | cons t ts ih => exact .left Below.nil ih

theorem Descending.below (h : Descending (t :: ts)) (less : t.1 < n) : Below n (t :: ts) :=
  List.forall_mem_cons.2 ⟨less, fun s mem => ((List.pairwise_cons.1 h).1 s mem).trans less⟩

theorem merges_of_addAll (hts : ts.Descending) (hus : us.Descending) (sum : addAll ts us = .ok vs) :
    Merges ts us vs := by
  -- The induction is on both lists: the greater of the two first terms comes first.
  induction ts generalizing us vs with
  | nil =>
    induction us generalizing vs with
    | nil =>
      cases sum
      exact .nil
    | cons u us ih =>
      obtain ⟨lower, hus⟩ := List.pairwise_cons.1 hus
      rw [addAll_cons_of_below Below.nil lower] at sum
      obtain ⟨ws, later, rfl⟩ := Outcome.map_eq_ok.1 sum
      exact .right Below.nil (ih hus later)
  | cons t ts iht =>
    induction us generalizing vs with
    | nil =>
      cases sum
      exact merges_nil _
    | cons u us ihu =>
      obtain ⟨-, hts'⟩ := List.pairwise_cons.1 hts
      obtain ⟨lower, hus'⟩ := List.pairwise_cons.1 hus
      rcases lt_trichotomy u.1 t.1 with less | same | greater
      · rw [addAll_of_below (hus.below less)] at sum
        obtain ⟨ws, later, rfl⟩ := Outcome.map_eq_ok.1 sum
        exact .left (hus.below less) (iht hts' hus later)
      · obtain ⟨n, a⟩ := t
        obtain ⟨m, b⟩ := u
        obtain rfl : m = n := same
        rw [addAll_cons_cons lower] at sum
        obtain ⟨c, added, sum⟩ := Outcome.bind_eq_ok.1 sum
        obtain ⟨ws, later, rfl⟩ := Outcome.map_eq_ok.1 sum
        exact .both added (iht hts' hus' later)
      · rw [addAll_cons_of_below (hts.below greater) lower] at sum
        obtain ⟨ws, later, rfl⟩ := Outcome.map_eq_ok.1 sum
        exact .right (hts.below greater) (ihu hus' later)

theorem descending_addAll (hts : ts.Descending) (sum : addAll ts us = .ok vs) : vs.Descending := by
  induction us generalizing ts with
  | nil =>
    cases sum
    exact hts
  | cons u us ih =>
    rw [addAll_cons] at sum
    obtain ⟨ws, added, later⟩ := Outcome.bind_eq_ok.1 sum
    exact ih (descending_add hts added) later

end Terms

/-! ## Differences -/

namespace Poly

variable {p q d : Poly} {x : Text}

theorem degree_opposite (h : q.terms = p.neg.terms) : q.degree = p.degree := by
  rw [degree, degree, h, neg_terms, List.head?_map, Option.map_map]
  rfl

theorem isConstant_neg (p : Poly) : p.neg.isConstant = p.isConstant := by
  rw [isConstant, isConstant, degree_opposite rfl]

/-- Whether two polynomials have a variable in common does not depend on their order. -/
theorem exists_sharedVar_neg (h : p.sharedVar q.neg = .ok x) : ∃ y, q.sharedVar p.neg = .ok y := by
  have var : ∀ p : Poly, p.neg.var = p.var := fun _ => rfl
  unfold sharedVar at h ⊢
  rw [isConstant_neg, var] at h ⊢
  split at h
  next own =>
    rcases own with same | constant
    · exact ⟨_, if_pos (.inl same.symm)⟩
    · by_cases own' : q.var = p.var ∨ p.isConstant = true
      · exact ⟨_, if_pos own'⟩
      · exact ⟨_, (if_neg own').trans (if_pos constant)⟩
  next =>
    split at h
    next constant => exact ⟨_, if_pos (.inr constant)⟩
    · cases h

/-- The difference of two polynomials and that of the other from the one have opposite terms. -/
theorem add_neg_swap (h : p.add q.neg = .ok d) : ∃ e, q.add p.neg = .ok e ∧ e.terms = d.neg.terms := by
  obtain ⟨ts, sum, h⟩ := Outcome.bind_eq_ok.1 h
  obtain ⟨x, shared, h⟩ := Outcome.bind_eq_ok.1 h
  cases h
  obtain ⟨y, shared'⟩ := exists_sharedVar_neg shared
  have sum' : Terms.addAll q.terms p.neg.terms = .ok ts.opposite := by
    have merged := (Terms.merges_of_addAll p.descending q.neg.descending sum).swap.opposite
    rw [neg_terms, ← Terms.opposite, Terms.opposite_opposite] at merged
    rw [neg_terms]
    exact merged.addAll p.descending.opposite
  have sorted : ts.Descending := Terms.descending_addAll p.descending sum
  refine ⟨ofTerms y ts.opposite, Outcome.bind_eq_ok.2 ⟨_, sum', Outcome.bind_eq_ok.2 ⟨y, shared', rfl⟩⟩, ?_⟩
  rw [neg_terms]
  show Terms.normal _ = Terms.opposite (Terms.normal ts)
  rw [Terms.normal_of_descending sorted, Terms.normal_of_descending sorted.opposite, Terms.nonzero_opposite]

end Poly

/-! ## Roots -/

/-- The same solutions, as often and in any order. -/
inductive Solutions.SameRoots : Solutions → Solutions → Prop where
  | everything : SameRoots .everything .everything
  | values {rs ss : List Number} : rs.Perm ss → SameRoots (.values rs) (.values ss)

namespace Poly

variable {p q : Poly} {a b c : Rat} {n : Nat} {rs : List Number} {s : Solutions}

section AnyRoot

variable (rootOf : Rat → Outcome Rat) (places : Nat)

/-- The roots of `a * x ^ 2 + b * x + c`, whatever root of the size of the discriminant is taken. -/
def quadraticRootsWith (a b c : Rat) : Outcome (List Number) :=
  let discriminant := b * b - 4 * a * c
  let size := Rational.abs discriminant
  if discriminant = 0 then .ok [.rational (-b / (2 * a))]
  else do
    let root ← rootOf size
    let settle := settle places (root * root == size)
    if 0 < discriminant then
      return ascending (← settle ((-b - root) / (2 * a))) (← settle ((-b + root) / (2 * a)))
    else
      let im ← settle (root / (2 * a))
      return [.complex ⟨-b / (2 * a), im⟩, .complex ⟨-b / (2 * a), -im⟩]

/-- The solutions of `p = 0`, whatever root of the size of a discriminant is taken. -/
def solveWith (p : Poly) : Outcome Solutions :=
  match p.degree with
  | 0 => .ok (if p.isZero then .everything else .values [])
  | n + 1 =>
    if 2 < n + 1 then refuse (.degreeTooHigh (n + 1))
    else
      match p.scalarAt? 2, p.scalarAt? 1, p.scalarAt? 0 with
      | some a, some b, some c =>
        if n = 0 then .ok (.values [linearRoot b c])
        else if a.im = 0 ∧ b.im = 0 ∧ c.im = 0 then (quadraticRootsWith rootOf places a.re b.re c.re).map .values
        else refuse (.nonRationalQuadratic p.text)
      | _, _, _ => refuse (.nonScalarEquation p.text)

theorem solve_eq_solveWith (p : Poly) : p.solve places = p.solveWith (Rational.sqrt places) places := rfl

variable {rootOf places}

theorem settle_neg (exact : Bool) (q : Rat) : settle places exact (-q) = (settle places exact q).map (-·) := by
  cases exact
  · exact Rational.round_neg places q
  · rfl

theorem ascending_perm (x y : Rat) : (ascending x y).Perm [.rational x, .rational y] := by
  unfold ascending
  split
  · exact .swap _ _ _
  · exact .refl _

theorem quadraticRootsWith_neg (h : quadraticRootsWith rootOf places a b c = .ok rs) :
    ∃ ss, quadraticRootsWith rootOf places (-a) (-b) (-c) = .ok ss ∧ rs.Perm ss := by
  have discriminant : -b * -b - 4 * -a * -c = b * b - 4 * a * c := by ring
  have vertex : - -b / (2 * -a) = -b / (2 * a) := by rw [mul_neg, neg_div_neg_eq]
  simp only [quadraticRootsWith] at h ⊢
  rw [discriminant, vertex]
  split at h
  next zero =>
    cases h
    exact ⟨_, if_pos zero, .refl _⟩
  next nonzero =>
    obtain ⟨root, taken, h⟩ := Outcome.bind_eq_ok.1 h
    rw [if_neg nonzero, taken]
    split at h
    next positive =>
      obtain ⟨x, hx, h⟩ := Outcome.bind_eq_ok.1 h
      obtain ⟨y, hy, h⟩ := Outcome.bind_eq_ok.1 h
      cases h
      have lower : (- -b - root) / (2 * -a) = (-b + root) / (2 * a) := by
        rw [mul_neg, ← neg_div_neg_eq, neg_neg]
        ring
      have upper : (- -b + root) / (2 * -a) = (-b - root) / (2 * a) := by
        rw [mul_neg, ← neg_div_neg_eq, neg_neg]
        ring
      refine ⟨ascending y x, (if_pos positive).trans ?_, ?_⟩
      · rw [lower, upper, hx, hy]
        rfl
      · exact (ascending_perm _ _).trans ((List.Perm.swap _ _ _).trans (ascending_perm _ _).symm)
    next notPositive =>
      obtain ⟨im, him, h⟩ := Outcome.bind_eq_ok.1 h
      cases h
      have height : root / (2 * -a) = -(root / (2 * a)) := by rw [mul_neg, div_neg]
      refine ⟨_, (if_neg notPositive).trans (by rw [height, settle_neg, him]; rfl), ?_⟩
      rw [neg_neg]
      exact .swap _ _ _

theorem scalarAt?_opposite (h : q.terms = p.neg.terms) (n : Nat) : q.scalarAt? n = (p.scalarAt? n).map (-·) := by
  have coefficient : q.coefficient n = (p.coefficient n).neg := by
    rw [Poly.coefficient, Poly.coefficient, h, neg_terms, ← Terms.opposite, Terms.lookup_opposite]
    cases p.terms.lookup n <;> rfl
  rw [scalarAt?, scalarAt?, coefficient]
  cases p.coefficient n <;> rfl

/-- Polynomials with opposite terms have the same solutions. -/
theorem solveWith_opposite (h : q.terms = p.neg.terms) (solved : p.solveWith rootOf places = .ok s) :
    ∃ s', q.solveWith rootOf places = .ok s' ∧ s.SameRoots s' := by
  have isZero : q.isZero = p.isZero := by
    rw [Poly.isZero, Poly.isZero, h, neg_terms, List.isEmpty_map]
  unfold solveWith at solved ⊢
  rw [degree_opposite h, isZero, scalarAt?_opposite h, scalarAt?_opposite h, scalarAt?_opposite h]
  split at solved
  next =>
    cases solved
    refine ⟨_, rfl, ?_⟩
    split
    · exact .everything
    · exact .values (.refl _)
  next n _ =>
    split at solved
    · cases solved
    next low =>
      split at solved
      next a b c atTwo atOne atZero =>
        have real : ((-a).im = 0 ∧ (-b).im = 0 ∧ (-c).im = 0) ↔ a.im = 0 ∧ b.im = 0 ∧ c.im = 0 := by simp
        simp only [if_neg low, atTwo, atOne, atZero, Option.map_some, real]
        split at solved
        next linear =>
          cases solved
          refine ⟨_, if_pos linear, .values ?_⟩
          rw [linearRoot, linearRoot, neg_div_neg_eq]
        next quadratic =>
          split at solved
          next rational =>
            obtain ⟨rs, found, rfl⟩ := Outcome.map_eq_ok.1 solved
            obtain ⟨ss, found', same⟩ := quadraticRootsWith_neg found
            refine ⟨.values ss, ?_, .values same⟩
            rw [if_neg quadratic, if_pos rational]
            exact Outcome.map_eq_ok.2 ⟨ss, found', rfl⟩
          · cases solved
      · cases solved

end AnyRoot

end Poly

end Reckoner
