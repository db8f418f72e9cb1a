import Reckoner.Proofs.Poly.Roots
import Reckoner.Proofs.Session.Substitution
import Reckoner.Session.Equation
/-!
# Solutions solve the equation as written

The solutions of an equation are roots of the difference of its sides, found with the unknown as a polynomial. Where both
sides are built from the unknown and from numbers, each side at a root is what it is with the unknown bound to the root, so
that the two sides are equal there. A remainder is taken coefficient by coefficient, and a matrix of zeros is dropped as a
coefficient; so this does not hold for all equations.
-/

namespace Reckoner.Environment

open Polynomial

variable {env : Environment} {places : Nat} {line left right x : Text} {roots : List Number} {p : Poly}

/-- A solved equation in one unknown: the solutions are those of the difference of its sides. -/
theorem solve_difference (solved : (env.solve places line).outcome = .ok (.values roots))
    (sides : equationSides line = .ok (left, right)) (single : env.unknowns left right = [x])
    (difference : (env.difference left right line (some x)).outcome = .ok p) :
    p.solve places = .ok (.values roots) := by
  rw [solve, Traced.outcome_reporting, solveEquation, Traced.outcome_bind_eq_ok] at solved
  obtain ⟨⟨l, r⟩, sides', solved⟩ := solved
  cases sides.symm.trans sides'
  simp only [single, List.length_singleton, Nat.lt_irrefl, if_false, List.head?_cons, Traced.outcome_bind_eq_ok,
    Traced.outcome_monadLift] at solved
  obtain ⟨q, difference', s, found, -, -, same⟩ := solved
  cases difference.symm.trans difference'
  cases same
  exact found

/-- The difference of two sides stands for the difference of what they stand for. -/
theorem difference_denotes {v w : Value} {f g : Gaussian[X]}
    (atLeft : (env.eval left line (unknown x)).outcome = .ok v) (hv : v.Denotes x f)
    (atRight : (env.eval right line (unknown x)).outcome = .ok w) (hw : w.Denotes x g)
    (difference : (env.difference left right line (some x)).outcome = .ok p) : p.Denotes x (f - g) := by
  simp only [Environment.difference, Traced.outcome_bind_eq_ok, Traced.outcome_monadLift] at difference
  obtain ⟨v', first, w', second, d, subtracted, same⟩ := difference
  cases atLeft.symm.trans first
  cases atRight.symm.trans second
  obtain ⟨d', run, hd⟩ := hv.sub hw
  cases run.symm.trans subtracted
  cases same
  exact hd.toPoly

theorem values_of_difference (difference : (env.difference left right line (some x)).outcome = .ok p) :
    (∃ v, (env.eval left line (unknown x)).outcome = .ok v) ∧
      ∃ w, (env.eval right line (unknown x)).outcome = .ok w := by
  simp only [Environment.difference, Traced.outcome_bind_eq_ok] at difference
  obtain ⟨v, first, w, second, -⟩ := difference
  exact ⟨⟨v, first⟩, w, second⟩

/-- Both sides of an equation have a value with the unknown bound to a solution, and the values are equal, where the
solutions are exact and the sides are built from the unknown and from numbers. -/
theorem solve_satisfies (solved : (env.solve places line).outcome = .ok (.values roots))
    (sides : equationSides line = .ok (left, right)) (single : env.unknowns left right = [x])
    (difference : (env.difference left right line (some x)).outcome = .ok p) (solvable : p.ExactlySolvable)
    (scalarLeft : env.ScalarText line x left) (scalarRight : env.ScalarText line x right) :
    ∀ r ∈ roots, ∃ a b, (env.eval left line [(x, .number r)]).outcome = .ok a ∧
      (env.eval right line [(x, .number r)]).outcome = .ok b ∧ a.same b = true := by
  intro r mem
  obtain ⟨⟨v, atLeft⟩, w, atRight⟩ := values_of_difference difference
  obtain ⟨f, hv, left_at⟩ := scalarLeft.eval atLeft
  obtain ⟨g, hw, right_at⟩ := scalarRight.eval atRight
  have denotes := difference_denotes atLeft hv atRight hw difference
  have root := denotes.eval_root solvable (solve_difference solved sides single difference) r mem
  rw [eval_sub, sub_eq_zero] at root
  refine ⟨_, _, left_at r, right_at r, ?_⟩
  rw [root]
  exact beq_self_eq_true _

/-! ## An equation with a call and a remainder of numbers -/

/-- The equation `g(x) - i*x = a*x + 7%4 - 2`, to be solved after `setUp`. -/
def quadratic : Text := "g(x) - i*x = a*x + 7%4 - 2 ?".toList

/-- The difference of its sides, `x^2 - 3/2*x - 1`. -/
def quadraticDifference : Poly := .ofTerms ['x'] [(2, .scalar 1), (1, .scalar ⟨-3 / 2, 0⟩), (0, .scalar ⟨-1, 0⟩)]

theorem quadratic_left : afterSetUp.ScalarText quadratic ['x'] "g(x)-i*x".toList := by
  have argument : Expression.Derives .sum (.operand .identifier ⟨['x'], 2⟩) _ := .sum_of_atom .operand
  have call : Expression.Derives .sum (.call ⟨['g'], 0⟩ (.operand .identifier ⟨['x'], 2⟩)) _ :=
    .sum_of_atom (.call (l := ⟨['('], 1⟩) (r := ⟨[')'], 3⟩) argument)
  have product : Expression.Derives .product
      (.binary .times ⟨['*'], 6⟩ (.operand .imaginary ⟨['i'], 5⟩) (.operand .identifier ⟨['x'], 7⟩)) _ :=
    .product rfl (.ofUnary (.ofPower (.ofAtom .operand))) (.ofPower (.ofAtom .operand))
  refine ⟨_, _, ?_, .sum (o := .minus) (m := ⟨['-'], 4⟩) rfl call product, ?_⟩
  · decide +kernel
  · refine .binary (by decide) (.call (fun f found => ?_) (.unknown rfl)) (.binary (by decide) (.part (a := .complex ⟨0, 1⟩)
      (Expression.avoids_operand (by simp) (by decide)) (by decide +kernel))
      (.unknown rfl))
    have known : afterSetUp.function? ['g'] = some square := by decide +kernel
    cases known.symm.trans found
    exact square_isScalar

theorem quadratic_right : afterSetUp.ScalarText quadratic ['x'] "a*x+7%4-2".toList := by
  have product : Expression.Derives .product
      (.binary .times ⟨['*'], 1⟩ (.operand .identifier ⟨['a'], 0⟩) (.operand .identifier ⟨['x'], 2⟩)) _ :=
    .product rfl (.ofUnary (.ofPower (.ofAtom .operand))) (.ofPower (.ofAtom .operand))
  have remainder : Expression.Derives .product
      (.binary .modulo ⟨['%'], 5⟩ (.operand .number ⟨['7'], 4⟩) (.operand .number ⟨['4'], 6⟩)) _ :=
    .product rfl (.ofUnary (.ofPower (.ofAtom .operand))) (.ofPower (.ofAtom .operand))
  have two : Expression.Derives .product (.operand .number ⟨['2'], 8⟩) _ := .ofUnary (.ofPower (.ofAtom .operand))
  have sum := Expression.Derives.sum (o := .plus) (m := ⟨['+'], 3⟩) rfl (.ofProduct product) remainder
  refine ⟨_, _, ?_, .sum (o := .minus) (m := ⟨['-'], 7⟩) rfl sum two, ?_⟩
  · decide +kernel
  · have a : Expression.ScalarIn afterSetUp quadratic ['x'] (.operand .identifier ⟨['a'], 0⟩) :=
      .part (a := .rational (3 / 2)) (Expression.avoids_operand (by decide) (by decide)) (by decide +kernel)
    have rest : Expression.ScalarIn afterSetUp quadratic ['x'] _ :=
      .part (a := .rational 3)
        (e := .binary .modulo ⟨['%'], 5⟩ (.operand .number ⟨['7'], 4⟩) (.operand .number ⟨['4'], 6⟩))
        ⟨by simp [Expression.postorder, Mark.token], by simp [Expression.postorder, Mark.token]⟩ (by decide +kernel)
    have subtrahend : Expression.ScalarIn afterSetUp quadratic ['x'] (.operand .number ⟨['2'], 8⟩) :=
      .part (a := .rational 2) (Expression.avoids_operand (by simp) (by decide)) (by decide +kernel)
    exact .binary (by decide) (.binary (by decide) (.binary (by decide) a (.unknown rfl)) rest) subtrahend

theorem quadratic_satisfied :
    (afterSetUp.solve 10 quadratic).outcome = .ok (.values [.rational (-1 / 2), .rational 2]) ∧
      equationSides quadratic = .ok ("g(x)-i*x".toList, "a*x+7%4-2".toList) ∧
      afterSetUp.unknowns "g(x)-i*x".toList "a*x+7%4-2".toList = [['x']] ∧
      (afterSetUp.difference "g(x)-i*x".toList "a*x+7%4-2".toList quadratic (some ['x'])).outcome =
        .ok quadraticDifference ∧
      quadraticDifference.ExactlySolvable ∧
      ∀ r ∈ [Number.rational (-1 / 2), .rational 2], ∃ a b,
        (afterSetUp.eval "g(x)-i*x".toList quadratic [(['x'], .number r)]).outcome = .ok a ∧
        (afterSetUp.eval "a*x+7%4-2".toList quadratic [(['x'], .number r)]).outcome = .ok b ∧ a.same b = true := by
  have solved : (afterSetUp.solve 10 quadratic).outcome = .ok (.values [.rational (-1 / 2), .rational 2]) := by
    decide +kernel
  have sides : equationSides quadratic = .ok ("g(x)-i*x".toList, "a*x+7%4-2".toList) := by decide +kernel
  have single : afterSetUp.unknowns "g(x)-i*x".toList "a*x+7%4-2".toList = [['x']] := by decide +kernel
  have difference : (afterSetUp.difference "g(x)-i*x".toList "a*x+7%4-2".toList quadratic (some ['x'])).outcome =
      .ok quadraticDifference := by decide +kernel
  have solvable : quadraticDifference.ExactlySolvable :=
    .inr ⟨by decide +kernel, 1, -3 / 2, -1, by decide +kernel, by decide +kernel, by decide +kernel, 5 / 2,
      by decide +kernel⟩
  exact ⟨solved, sides, single, difference, solvable,
    solve_satisfies solved sides single difference solvable quadratic_left quadratic_right⟩

/-! ## Equations that are not satisfied -/

/-- A remainder is taken coefficient by coefficient, so the remainder of `x` by two is `x`; and a matrix of zeros is dropped
as a coefficient, so that it is not added to a number. The solutions are those of `x - 4` and of `x - 2`. -/
theorem remainder_not_satisfied :
    Reachable {} ∧
      (equationSides "x % 2 = 4 ?".toList = .ok ("x%2".toList, "4".toList) ∧
        unknowns {} "x%2".toList "4".toList = [['x']] ∧
        (difference {} "x%2".toList "4".toList "x % 2 = 4 ?".toList (some ['x'])).outcome =
          .ok (.ofTerms ['x'] [(1, .scalar 1), (0, .scalar ⟨-4, 0⟩)]) ∧
        (solve 10 {} "x % 2 = 4 ?".toList).outcome = .ok (.values [.rational 4]) ∧
        (eval {} "x%2".toList "x % 2 = 4 ?".toList [(['x'], .rational 4)]).outcome = .ok (.rational 0) ∧
        (eval {} "4".toList "x % 2 = 4 ?".toList [(['x'], .rational 4)]).outcome = .ok (.rational 4) ∧
        (Value.rational 0).same (.rational 4) = false) ∧
      equationSides "[[0]]*x + x = 2 ?".toList = .ok ("[[0]]*x+x".toList, "2".toList) ∧
        unknowns {} "[[0]]*x+x".toList "2".toList = [['x']] ∧
        (difference {} "[[0]]*x+x".toList "2".toList "[[0]]*x + x = 2 ?".toList (some ['x'])).outcome =
          .ok (.ofTerms ['x'] [(1, .scalar 1), (0, .scalar ⟨-2, 0⟩)]) ∧
        (solve 10 {} "[[0]]*x + x = 2 ?".toList).outcome = .ok (.values [.rational 2]) ∧
        (eval {} "[[0]]*x+x".toList "[[0]]*x + x = 2 ?".toList [(['x'], .rational 2)]).outcome =
          refuse (.addScalarToMatrix "[[0]]".toList "2".toList) := by
  refine ⟨⟨.ofSettings {}, {}, [], rfl⟩, ?_⟩
  decide +kernel

end Reckoner.Environment
