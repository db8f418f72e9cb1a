import Reckoner.Proofs.Poly.Opposite
import Reckoner.Proofs.Session.Spelling
import Reckoner.Value.Arithmetic
/-!
# Equations with their sides swapped

The sides of an equation are read one after the other, and the right one is taken from the left one. Whichever side comes
first, the unknown is the same, and the differences have opposite terms.

Main statement: an equation has the same solutions with its sides swapped, whatever root of the size of a discriminant is
taken.
-/

namespace Reckoner

/-! ## Differences of values -/

namespace Value

variable {v w d : Value}

theorem polynomial_sub (p : Poly) (w : Value) : (polynomial p).sub w = (p.add (w.toPoly p.var).neg).map polynomial := by
  cases w <;> rfl

theorem sub_polynomial (w : Value) (p : Poly) : w.sub (polynomial p) = ((w.toPoly p.var).add p.neg).map polynomial := by
  cases w <;> rfl

theorem polynomial_swap {p q : Poly} (h : (p.add q.neg).map polynomial = .ok d) :
    ∃ e, (q.add p.neg).map polynomial = .ok e ∧ ∀ x y, (e.toPoly x).terms = (d.toPoly y).neg.terms := by
  obtain ⟨d, sum, rfl⟩ := Outcome.map_eq_ok.1 h
  obtain ⟨e, sum', opposite⟩ := Poly.add_neg_swap sum
  exact ⟨polynomial e, Outcome.map_eq_ok.2 ⟨e, sum', rfl⟩, fun _ _ => opposite⟩

/-- The difference of two values and that of the other from the one have opposite terms, or there is neither. -/
theorem sub_swap (h : v.sub w = .ok d) :
    ∃ e, w.sub v = .ok e ∧ ∀ x y, (e.toPoly x).terms = (d.toPoly y).neg.terms := by
  have constant : ∀ (x y : Text) (c : Coeff), (Poly.constant x c.neg).terms = (Poly.constant y c).neg.terms := by
    intro x y c
    rw [Poly.constant, Poly.constant, ← Poly.monomial, ← Poly.monomial, Poly.monomial_neg, Poly.monomial_terms,
      Poly.monomial_terms]
  cases v with
  | polynomial p =>
    rw [polynomial_sub] at h
    rw [sub_polynomial]
    exact polynomial_swap h
  | number a =>
    cases w with
    | polynomial q =>
      rw [sub_polynomial] at h
      rw [polynomial_sub]
      exact polynomial_swap h
    | number b =>
      cases h
      have opposite : (b.sub a).toGaussian = -(a.sub b).toGaussian := by
        rw [Number.toGaussian_sub, Number.toGaussian_sub, neg_sub]
      refine ⟨_, rfl, fun x y => ?_⟩
      rw [toPoly, toPoly, opposite]
      exact constant x y (.scalar _)
    | matrix b => cases h
  | matrix a =>
    cases w with
    | polynomial q =>
      rw [sub_polynomial] at h
      rw [polynomial_sub]
      exact polynomial_swap h
    | number b => cases h
    | matrix b =>
      obtain ⟨m, difference, rfl⟩ := Outcome.map_eq_ok.1 h
      exact ⟨matrix m.neg, by rw [sub, Mat.sub_swap difference]; rfl, fun x y => constant x y (.matrix m)⟩

end Value

/-! ## Sides -/

/-- What may be written on one side of an equation: something, without blanks and without the marks of equations and
requests. -/
structure Line.IsSide (t : Text) : Prop where
  nonempty : t ≠ []
  squeezed : Text.squeeze t = t
  noEquals : '=' ∉ t
  noMark : '?' ∉ t

namespace Environment

variable {env : Environment} {left right line line' : Text} {places : Nat} {rootOf : Rat → Outcome Rat} {s : Solutions}
  {p : Poly} {unknown? : Option Text}

theorem equationSides_eq (hl : Line.IsSide left) (hr : Line.IsSide right) :
    equationSides (left ++ '=' :: right) = .ok (left, right) := by
  have squeezed : Text.squeeze (left ++ '=' :: right) = left ++ '=' :: right := by
    rw [Text.squeeze_append, hl.squeezed]
    exact congrArg (left ++ '=' :: ·) hr.squeezed
  have noMark : Text.chop? '?' (left ++ '=' :: right) = none :=
    Text.chop?_eq_none (by simp [hl.noMark, hr.noMark])
  have cut : Line.sides (left ++ '=' :: right) (left ++ '=' :: right) = .ok (left, right) :=
    Line.sides_eq_ok.2 ⟨rfl, hl.noEquals, hr.noEquals⟩
  simp only [equationSides, squeezed, noMark, Option.getD_none]
  rw [if_pos (by simp), cut]
  exact if_neg (by simp [hl.nonempty, hr.nonempty])

/-! ### Unknowns -/

/-- Unknowns, and the parameter that a side is solved for. -/
def addParameter (env : Environment) (unknowns : List Text) (side : Text) : List Text :=
  match env.ownCall? side with
  | some f => if unknowns.contains f.parameter then unknowns else f.parameter :: unknowns
  | none => unknowns

theorem mem_addParameter {unknowns : List Text} {side x : Text} :
    x ∈ env.addParameter unknowns side ↔ x ∈ unknowns ∨ ∃ f, env.ownCall? side = some f ∧ f.parameter = x := by
  unfold addParameter
  cases env.ownCall? side with
  | none => simp
  | some f =>
    simp only [Option.some.injEq, exists_eq_left']
    split
    next known =>
      have present : f.parameter = x → x ∈ unknowns := by
        rintro rfl
        simpa using known
      tauto
    next => rw [List.mem_cons, or_comm, eq_comm]

theorem nodup_addParameter {unknowns : List Text} (nodup : unknowns.Nodup) (side : Text) :
    (env.addParameter unknowns side).Nodup := by
  unfold addParameter
  split
  · split
    · exact nodup
    next unknown => exact List.nodup_cons.2 ⟨by simpa using unknown, nodup⟩
  · exact nodup

theorem nodup_unknowns (env : Environment) (left right : Text) : (env.unknowns left right).Nodup :=
  nodup_addParameter (nodup_addParameter ((Text.nodup_distinct _).filter _) left) right

theorem mem_unknowns {x : Text} : x ∈ env.unknowns left right ↔
    ((x ∈ Line.variableNames left ∨ x ∈ Line.variableNames right) ∧ env.value? x = none) ∨
      ∃ f, (env.ownCall? left = some f ∨ env.ownCall? right = some f) ∧ f.parameter = x := by
  have unfolded : env.unknowns left right = env.addParameter (env.addParameter
      ((Text.distinct (Line.variableNames left ++ Line.variableNames right)).filter fun name => (env.value? name).isNone)
      left) right := rfl
  rw [unfolded, mem_addParameter, mem_addParameter, List.mem_filter, Text.mem_distinct, List.mem_append,
    Option.isNone_iff_eq_none, or_assoc]
  simp only [or_and_right, exists_or]

/-- The unknowns do not depend on the order of the sides, but for their own order. -/
theorem unknowns_perm (env : Environment) (left right : Text) :
    (env.unknowns left right).Perm (env.unknowns right left) := by
  refine (List.perm_ext_iff_of_nodup (nodup_unknowns ..) (nodup_unknowns ..)).2 fun x => ?_
  rw [mem_unknowns, mem_unknowns, or_comm (a := x ∈ Line.variableNames left)]
  simp only [or_comm (a := env.ownCall? left = some _)]

theorem unknowns_swap (single : ¬1 < (env.unknowns left right).length) :
    env.unknowns right left = env.unknowns left right := by
  have perm := unknowns_perm env right left
  cases unknowns : env.unknowns left right with
  | nil => rwa [unknowns, List.perm_nil] at perm
  | cons x rest =>
    rw [unknowns] at single perm
    obtain rfl : rest = [] := by
      cases rest with
      | nil => rfl
      | cons y rest => exact absurd (by simp) single
    exact List.perm_singleton.1 perm

/-! ## Solutions -/

/-- The sides have the same values in the other line, although messages show another line. -/
theorem difference_swap (difference : (env.difference left right line unknown?).outcome = .ok p) :
    ∃ q, (env.difference right left line' unknown?).outcome = .ok q ∧ q.terms = p.neg.terms := by
  simp only [Environment.difference, Traced.outcome_bind_eq_ok, Traced.outcome_monadLift] at difference ⊢
  obtain ⟨v, first, w, second, d, subtracted, same⟩ := difference
  cases same
  obtain ⟨e, swapped, opposite⟩ := Value.sub_swap subtracted
  refine ⟨_, ⟨w, outcome_eval_of_squeeze second rfl, v, outcome_eval_of_squeeze first rfl, e, swapped, rfl⟩, ?_⟩
  exact opposite _ _

/-- The solutions of an equation, whatever root of the size of a discriminant is taken. -/
def solveWith (rootOf : Rat → Outcome Rat) (places : Nat) (env : Environment) (line : Text) : Outcome Solutions := do
  let (left, right) ← equationSides line
  let unknowns := env.unknowns left right
  if 1 < unknowns.length then refuse (.severalUnknowns line unknowns)
  else
    let p ← (env.difference left right line unknowns.head?).outcome
    p.solveWith rootOf places

/-- What is found is what is found with the root that is taken. -/
theorem outcome_solve (env : Environment) (places : Nat) (line : Text) :
    (env.solve places line).outcome = env.solveWith (Rational.sqrt places) places line := by
  simp only [solve, solveEquation, solveWith, Traced.outcome_reporting, Traced.outcome_bind, Traced.outcome_monadLift]
  congr 1
  funext sides
  split
  · rfl
  · simp only [Traced.outcome_bind, Traced.outcome_monadLift, Traced.outcome_record, Traced.outcome_pure]
    exact bind_congr fun p => (bind_pure (p.solve places)).trans (Poly.solve_eq_solveWith places p)

theorem solveWith_swap (hl : Line.IsSide left) (hr : Line.IsSide right)
    (solved : env.solveWith rootOf places (left ++ '=' :: right) = .ok s) :
    ∃ s', env.solveWith rootOf places (right ++ '=' :: left) = .ok s' ∧ s.SameRoots s' := by
  obtain ⟨sides, cut, solved⟩ := Outcome.bind_eq_ok.1 solved
  cases (equationSides_eq hl hr).symm.trans cut
  dsimp only at solved
  split at solved
  · cases solved
  next single =>
    obtain ⟨p, difference, solved⟩ := Outcome.bind_eq_ok.1 solved
    obtain ⟨q, swapped, opposite⟩ := difference_swap difference
    obtain ⟨s', solved', same⟩ := Poly.solveWith_opposite opposite solved
    refine ⟨s', ?_, same⟩
    rw [solveWith, equationSides_eq hr hl]
    show (if 1 < (env.unknowns right left).length then _ else _) = _
    rw [unknowns_swap single, if_neg single, swapped]
    exact solved'

/-- Both outcomes are solutions, and the same ones as often, or neither is. -/
def SameSolutions (x y : Outcome Solutions) : Prop :=
  ((∃ s, x = .ok s) ↔ ∃ s, y = .ok s) ∧ ∀ s s', x = .ok s → y = .ok s' → s.SameRoots s'

theorem solveWith_swapped (hl : Line.IsSide left) (hr : Line.IsSide right) : SameSolutions
    (env.solveWith rootOf places (left ++ '=' :: right)) (env.solveWith rootOf places (right ++ '=' :: left)) := by
  refine ⟨⟨?_, ?_⟩, ?_⟩
  · rintro ⟨s, solved⟩
    obtain ⟨s', solved', -⟩ := solveWith_swap hl hr solved
    exact ⟨s', solved'⟩
  · rintro ⟨s, solved⟩
    obtain ⟨s', solved', -⟩ := solveWith_swap hr hl solved
    exact ⟨s', solved'⟩
  · intro s s' solved solved'
    obtain ⟨s'', found, same⟩ := solveWith_swap hl hr solved
    cases found.symm.trans solved'
    exact same

/-- An equation and the one with its sides swapped: both are solved, and the solutions are the same ones as often, or
neither is. This is so whatever root of the size of a discriminant is taken, and with the one that is taken. -/
theorem solve_swapped (env : Environment) (places : Nat) {left right : Text} (hl : Line.IsSide left)
    (hr : Line.IsSide right) :
    (∀ rootOf : Rat → Outcome Rat, SameSolutions (env.solveWith rootOf places (left ++ '=' :: right))
        (env.solveWith rootOf places (right ++ '=' :: left))) ∧
      SameSolutions (env.solve places (left ++ '=' :: right)).outcome (env.solve places (right ++ '=' :: left)).outcome := by
  refine ⟨fun rootOf => solveWith_swapped hl hr, ?_⟩
  rw [outcome_solve, outcome_solve]
  exact solveWith_swapped hl hr

/-- What is left by `f(x) = x^2 + 2*x` and then `x = 5`. -/
def parameterSet : Environment where
  values := [(['x'], .rational 5)]
  functions := [(['f'], ⟨['f'], ['x'], .polynomial (.ofTerms ['x'] [(2, .ofRat 1), (1, .ofRat 2)])⟩)]

/-- The call is solved for its parameter on either side, and the conjugates, whose imaginary parts are rounded, change
places. -/
theorem solve_swapped_call :
    Line.IsSide "f(x)".toList ∧ Line.IsSide "-3".toList ∧
      (parameterSet.solve 10 "f(x)=-3".toList).outcome =
        .ok (.values [.complex ⟨-1, 1767766953 / 1250000000⟩, .complex ⟨-1, -1767766953 / 1250000000⟩]) ∧
      (parameterSet.solve 10 "-3=f(x)".toList).outcome =
        .ok (.values [.complex ⟨-1, -1767766953 / 1250000000⟩, .complex ⟨-1, 1767766953 / 1250000000⟩]) ∧
      (∀ rootOf : Rat → Outcome Rat, SameSolutions
          (parameterSet.solveWith rootOf 10 ("f(x)".toList ++ '=' :: "-3".toList))
          (parameterSet.solveWith rootOf 10 ("-3".toList ++ '=' :: "f(x)".toList))) ∧
        SameSolutions (parameterSet.solve 10 ("f(x)".toList ++ '=' :: "-3".toList)).outcome
          (parameterSet.solve 10 ("-3".toList ++ '=' :: "f(x)".toList)).outcome := by
  have call : Line.IsSide "f(x)".toList := ⟨by decide, by decide, by decide, by decide⟩
  have number : Line.IsSide "-3".toList := ⟨by decide, by decide, by decide, by decide⟩
  exact ⟨call, number, by decide +kernel, by decide +kernel, solve_swapped parameterSet 10 call number⟩

end Environment

end Reckoner
