import Reckoner.Proofs.Expression.Agreement
import Reckoner.Proofs.Session.Reachable
import Reckoner.Proofs.Value.Substitution
/-!
# Calls are substitutions

The value of an expression at a number can be found in two ways: with the unknown bound to the number, or with the unknown as a
polynomial that is then taken at the number. For expressions without remainders, in which matrices meet no unknown, the two
agree. So calling a function that a line defined gives what its body gives with the parameter bound to the argument.
-/

namespace Reckoner

open Polynomial

/-- What tokens mean in a scope, matrix literals included. -/
abbrev Scope.fullMeaning (scope : Scope) (source : Text) : Postfix.Interpretation Value :=
  scope.meaning (Postfix.matrixValue scope) source

/-! ## Expressions -/

/-- A token that is no remainder and no matrix literal, and that is no name of a matrix or of a function with matrices in its
body. -/
structure Token.ScalarIn (env : Environment) (x : Text) (t : Token) : Prop where
  noRemainder : t.kind ≠ .operator .modulo
  noMatrix : t.kind ≠ .operand .matrix
  named : t.kind = .operand .identifier → t.value ≠ x → ∀ v, env.value? t.value = some v → ∃ a, v = .number a
  called : t.kind = .function → ∀ f, env.function? t.value = some f → f.body.IsScalar f.parameter

namespace Expression

/-- Expressions that are built from the unknown, and from parts without it that are numbers, with signs, parentheses, operators
other than the remainder, and calls of functions whose bodies are numbers or have numbers as coefficients. -/
inductive ScalarIn (env : Environment) (source x : Text) : Expression → Prop where
  | unknown {m} : m.value = x → ScalarIn env source x (operand .identifier m)
  | part {e a} : e.Avoids x → e.evalWith ((env.scope []).fullMeaning source) = .ok (.number a) → ScalarIn env source x e
  | negate {m e} : ScalarIn env source x e → ScalarIn env source x (negate m e)
  | binary {o m left right} : o ≠ .modulo → ScalarIn env source x left → ScalarIn env source x right →
    ScalarIn env source x (binary o m left right)
  | call {m argument} : (∀ f, env.function? m.value = some f → f.body.IsScalar f.parameter) →
    ScalarIn env source x argument → ScalarIn env source x (call m argument)
  | group {e} : ScalarIn env source x e → ScalarIn env source x (group e)

variable {env : Environment} {source x : Text} {e : Expression}

/-- Evaluation commutes with substitution. -/
theorem ScalarIn.substituted (h : e.ScalarIn env source x) {k : Gaussian[X]} {v w r : Value}
    (bound : Value.Substituted x k v w) (run : e.evalWith ((env.scope [(x, v)]).fullMeaning source) = .ok r) :
    ∃ r', e.evalWith ((env.scope [(x, w)]).fullMeaning source) = .ok r' ∧ Value.Substituted x k r r' := by
  induction h generalizing r with
  | @unknown m same =>
    subst same
    have own : ∀ u, (env.scope [(m.value, u)]).value? m.value = some u := fun u => by
      simp [Environment.scope, Scope.value?]
    simp only [evalWith, Scope.meaning, Scope.operandValue, own] at run ⊢
    cases run
    exact ⟨w, rfl, bound⟩
  | @part e a avoids value =>
    rw [evalWith_of_avoids avoids, value] at run ⊢
    cases run
    exact ⟨.number a, rfl, .of_constant rfl⟩
  | negate _ ih =>
    obtain ⟨a, inner, run⟩ := Outcome.bind_eq_ok.1 run
    obtain ⟨a', inner', ha⟩ := ih inner
    cases run
    exact ⟨a'.neg, Outcome.bind_eq_ok.2 ⟨a', inner', rfl⟩, ha.neg⟩
  | binary noRemainder _ _ ihl ihr =>
    obtain ⟨a, first, run⟩ := Outcome.bind_eq_ok.1 run
    obtain ⟨b, second, run⟩ := Outcome.bind_eq_ok.1 run
    obtain ⟨a', first', ha⟩ := ihl first
    obtain ⟨b', second', hb⟩ := ihr second
    obtain ⟨c', applied, hc⟩ := Operator.apply_substituted noRemainder ha hb run
    exact ⟨c', Outcome.bind_eq_ok.2 ⟨a', first', Outcome.bind_eq_ok.2 ⟨b', second', applied⟩⟩, hc⟩
  | @call m argument scalar _ ih =>
    obtain ⟨a, inner, run⟩ := Outcome.bind_eq_ok.1 run
    obtain ⟨a', inner', ha⟩ := ih inner
    simp only [Scope.meaning, Scope.callValue] at run
    split at run
    next f found =>
      obtain ⟨b', called, hb⟩ := NamedFunction.eval_substituted (scalar f found) ha run
      refine ⟨b', Outcome.bind_eq_ok.2 ⟨a', inner', ?_⟩, hb⟩
      have found' : (env.scope [(x, w)]).functions.lookup m.value = some f := found
      simp only [Scope.meaning, Scope.callValue, found']
      exact called
    · cases run
  | group _ ih => exact ih run

/-- A part without the unknown is a number if it is one beside the unknown. -/
theorem ScalarIn.of_avoids (avoids : e.Avoids x) {v : Value} {a : Number}
    (run : e.evalWith ((env.scope [(x, v)]).fullMeaning source) = .ok (.number a)) : e.ScalarIn env source x :=
  .part avoids ((evalWith_of_avoids avoids env v source).symm.trans run)

/-- What is known of the tokens of an expression that has a value is enough to know how it is built. -/
theorem scalarIn_of_tokens {v r : Value} (tokens : ∀ t ∈ e.postorder, t.ScalarIn env x)
    (run : e.evalWith ((env.scope [(x, v)]).fullMeaning source) = .ok r) : e.ScalarIn env source x := by
  induction e generalizing r with
  | operand o m =>
    cases o with
    | number =>
      obtain ⟨q, -, rfl⟩ := Outcome.map_eq_ok.1 run
      exact .of_avoids (avoids_operand (by simp) (by decide)) run
    | imaginary =>
      obtain ⟨z, -, rfl⟩ := Outcome.map_eq_ok.1 run
      exact .of_avoids (avoids_operand (by simp) (by decide)) run
    | matrix => exact absurd rfl (tokens _ (List.mem_singleton_self _)).noMatrix
    | identifier =>
      by_cases same : m.value = x
      · exact .unknown same
      · have avoids : (operand .identifier m).Avoids x := avoids_operand (fun _ => same) (by decide)
        have stored := (evalWith_of_avoids avoids env v source).symm.trans run
        simp only [evalWith, Scope.meaning, Scope.operandValue] at stored
        split at stored
        next found =>
          cases stored
          obtain ⟨a, rfl⟩ := (tokens _ (List.mem_singleton_self _)).named rfl same _ found
          exact .of_avoids avoids run
        · cases stored
  | negate m e ih =>
    obtain ⟨a, inner, -⟩ := Outcome.bind_eq_ok.1 run
    exact .negate (ih (fun t mem => tokens t (by simp [postorder, mem])) inner)
  | binary o m left right ihl ihr =>
    obtain ⟨a, first, run⟩ := Outcome.bind_eq_ok.1 run
    obtain ⟨b, second, -⟩ := Outcome.bind_eq_ok.1 run
    have operator : o ≠ .modulo := by
      rintro rfl
      exact (tokens (m.token (.operator .modulo)) (by simp [postorder])).noRemainder rfl
    refine .binary operator (ihl ?_ first) (ihr ?_ second)
    · exact fun t mem => tokens t (by simp [postorder, mem])
    · exact fun t mem => tokens t (by simp [postorder, mem])
  | call m argument ih =>
    obtain ⟨a, inner, -⟩ := Outcome.bind_eq_ok.1 run
    refine .call ((tokens (m.token .function) (by simp [postorder])).called rfl) (ih ?_ inner)
    exact fun t mem => tokens t (by simp [postorder, mem])
  | group e ih => exact .group (ih tokens run)

end Expression

/-! ## Texts -/

namespace Environment

variable {env : Environment} {t line x : Text}

/-- The value of a text is that of any expression that its tokens stand for. -/
theorem outcome_eval_of_derives {source : Text} {ts : List Token} {e : Expression} {bindings : List (Text × Value)}
    {v : Value} (read : Token.tokenize t source = .ok ts) (derived : Expression.Derives .sum e ts) :
    (env.eval t source bindings).outcome = .ok v ↔
      Line.checkBrackets t source = .ok () ∧ env.checkNames t source (bindings.map (·.1)) = .ok () ∧
        e.eval (env.scope bindings) source = .ok v := by
  rw [outcome_eval_eq_ok]
  constructor
  · rintro ⟨brackets, names, ts', e', read', derived', value⟩
    cases read.symm.trans read'
    have same : e.postorder = e'.postorder := by
      have ordered := Expression.ofTokens_derives derived source
      rw [Expression.ofTokens_derives derived' source] at ordered
      exact (congrArg Postfix.tokens (Except.ok.inj ordered)).symm
    refine ⟨brackets, names, ?_⟩
    rwa [← Expression.eval_postorder, same, Expression.eval_postorder]
  · rintro ⟨brackets, names, value⟩
    exact ⟨brackets, names, ts, e, read, derived, value⟩

/-- A text of an expression that is built from the unknown and from numbers. -/
def ScalarText (env : Environment) (line x t : Text) : Prop :=
  ∃ ts e, Token.tokenize t line = .ok ts ∧ Expression.Derives .sum e ts ∧ e.ScalarIn env line x

theorem identity_substituted (x : Text) (a : Number) :
    Value.Substituted x (C a.toGaussian) (.polynomial (Poly.identity x)) (.number a) := by
  refine ⟨X, ?_, by rw [X_comp]; rfl⟩
  have single := Poly.ofTerms_denotes (x := x) (Terms.Expands.single 1 1)
  rwa [monomial_one_one_eq_X] at single

/-- The value at the unknown stands for an element, and the value at a number is what that element is there. -/
theorem ScalarText.eval (h : env.ScalarText line x t) {v : Value}
    (value : (env.eval t line (unknown x)).outcome = .ok v) : ∃ F : Gaussian[X], v.Denotes x F ∧
      ∀ a : Number, (env.eval t line [(x, .number a)]).outcome = .ok (.number (.ofGaussian (F.eval a.toGaussian))) := by
  obtain ⟨ts, e, read, derived, scalar⟩ := h
  obtain ⟨brackets, names, value⟩ := (outcome_eval_of_derives read derived).1 value
  obtain ⟨r, run, simplified⟩ := Outcome.bind_eq_ok.1 value
  cases simplified
  have taken := fun a => scalar.substituted (identity_substituted x a) run
  obtain ⟨_, -, F, denotes, -⟩ := taken (.rational 0)
  refine ⟨F, denotes.simplify, fun a => (outcome_eval_of_derives read derived).2 ⟨brackets, names, ?_⟩⟩
  obtain ⟨r', run', G, denotes', at_a⟩ := taken a
  obtain rfl := denotes.unique denotes'
  rw [comp_C] at at_a
  exact Outcome.bind_eq_ok.2 ⟨r', run', by rw [at_a.simplify_constant]; rfl⟩

end Environment

theorem NamedFunction.eval_number {name x : Text} {v : Value} {F : Gaussian[X]} (h : v.Denotes x F) (a : Number) :
    NamedFunction.eval ⟨name, x, v.simplify⟩ (.number a) = .ok (.number (.ofGaussian (F.eval a.toGaussian))) := by
  rcases Nat.eq_zero_or_pos F.natDegree with constant | degree
  · obtain ⟨c, rfl⟩ := natDegree_eq_zero.1 constant
    rw [h.simplify_constant, eval_C]
    rfl
  · obtain ⟨p, rfl, same⟩ := h.simplify_polynomial degree
    have point : Value.Denotes (.number a) x (C a.toGaussian) := rfl
    obtain ⟨r, at_a, run⟩ := Poly.Denotes.eval h point
    rw [comp_C] at at_a
    rw [at_a.simplify_constant] at run
    rw [same]
    exact run

namespace Environment

variable {env : Environment} {line left body : Text} {f : NamedFunction}

theorem scalarText_of_names (reachable : env.Reachable) {x : Text} {v : Value}
    (value : (env.eval body line (unknown x)).outcome = .ok v) (noRemainder : '%' ∉ body) (noMatrix : '[' ∉ body)
    (values : ∀ name ∈ Line.variableNames body, name ≠ x → ∀ v, env.value? name = some v → ∃ y, v.IsScalar y)
    (bodies : ∀ name ∈ Line.functionNames body, ∀ g, env.function? name = some g → ∃ y, g.body.IsScalar y) :
    env.ScalarText line x body := by
  obtain ⟨-, -, ts, e, read, derived, value⟩ := outcome_eval_eq_ok.1 value
  obtain ⟨r, run, -⟩ := Outcome.bind_eq_ok.1 value
  refine ⟨ts, e, read, derived, Expression.scalarIn_of_tokens (fun t mem => ?_) run⟩
  have standing : t ∈ ts := Expression.mem_of_mem_postorder derived mem
  have part := Line.Within.refl body
  refine ⟨fun kind => ?_, fun kind => ?_, fun kind other w found => ?_, fun kind g found => ?_⟩
  · exact noRemainder (Token.mem_percent_of_token read standing kind)
  · exact noMatrix (Token.mem_bracket_of_token read standing kind)
  · obtain ⟨y, scalar⟩ := values _ (Token.mem_variableNames_of_token read standing kind part) other w found
    have constant := reachable.wellFormed.variableValues (t.value, w) (mem_of_lookup found)
    cases w with
    | number a => exact ⟨a, rfl⟩
    | matrix m => cases scalar
    | polynomial p => cases constant
  · obtain ⟨y, scalar⟩ := bodies _ (Token.mem_functionNames_of_token read standing kind part) g found
    rcases reachable.wellFormed.functionBodies (t.value, g) (mem_of_lookup found) with constant | ⟨p, eq, var, -⟩
    · cases eq : g.body with
      | number a => trivial
      | matrix m =>
        rw [eq] at scalar
        cases scalar
      | polynomial p =>
        rw [eq] at constant
        cases constant
    · simp only at eq var
      rw [eq] at scalar ⊢
      exact ⟨var, scalar.2⟩

/-- Calling a function that a line defined gives what the body gave there with the parameter bound to the argument, where
the body has no remainders and no matrices. -/
theorem define_eval (reachable : env.Reachable) (accepted : (env.assign line).outcome = .ok (.function f))
    (sides : Line.sides (Text.squeeze line) line = .ok (left, body)) (noRemainder : '%' ∉ body) (noMatrix : '[' ∉ body)
    (values : ∀ name ∈ Line.variableNames body, name ≠ f.parameter → ∀ v, env.value? name = some v → ∃ y, v.IsScalar y)
    (bodies : ∀ name ∈ Line.functionNames body, ∀ g, env.function? name = some g → ∃ y, g.body.IsScalar y) :
    (env.define (.function f)).function? f.name = some f ∧
      ∀ a : Number, ∃ r, (env.eval body line [(f.parameter, .number a)]).outcome = .ok r ∧
        f.eval (.number a) = .ok r := by
  refine ⟨lookup_setEntry_self, fun a => ?_⟩
  cases defines_of_assign accepted with
  | @ofFunction left' body' name parameter v _ sides' _ _ _ value made =>
    cases sides.symm.trans sides'
    cases NamedFunction.make_eq_ok made
    obtain ⟨F, denotes, at_number⟩ := (scalarText_of_names reachable value noRemainder noMatrix values bodies).eval value
    exact ⟨_, at_number a, NamedFunction.eval_number denotes a⟩

/-- The commands that set `a` to three halves and define `g(t)` as `t^2 + i*t`. -/
def setUp : List Command := [.assign "a = 3/2".toList, .assign "g(t) = t^2 + i*t".toList]

/-- The environment after `setUp`. -/
def afterSetUp : Environment := (setUp.foldl Session.after ⟨.ofSettings {}, {}, {}⟩).environment

/-- The function `g(t) = t^2 + i*t`. -/
def square : NamedFunction :=
  ⟨['g'], ['t'], .polynomial (.ofTerms ['t'] [(2, .scalar 1), (1, .scalar ⟨0, 1⟩)])⟩

theorem square_isScalar : square.body.IsScalar ['t'] := by
  have terms : (Poly.ofTerms ['t'] [(2, .scalar 1), (1, .scalar ⟨0, 1⟩)]).terms =
      [(2, .scalar 1), (1, .scalar ⟨0, 1⟩)] := by decide +kernel
  refine ⟨rfl, ?_⟩
  rw [terms]
  exact List.forall_mem_cons.2 ⟨⟨_, rfl⟩, List.forall_mem_singleton.2 ⟨_, rfl⟩⟩

/-- The function that `f(x) = g(2x)^2 / (a + 1/2) - x` defines after `setUp`. -/
def quartic : NamedFunction :=
  ⟨['f'], ['x'], .polynomial (.ofTerms ['x'] [(4, .scalar ⟨8, 0⟩), (3, .scalar ⟨0, 8⟩), (2, .scalar ⟨-2, 0⟩),
    (1, .scalar ⟨-1, 0⟩)])⟩

theorem quartic_eval :
    afterSetUp.Reachable ∧
      (afterSetUp.assign "f(x) = g(2x)^2 / (a + 1/2) - x".toList).outcome = .ok (.function quartic) ∧
      (afterSetUp.define (.function quartic)).function? ['f'] = some quartic ∧
      ∀ a : Number, ∃ r,
        (afterSetUp.eval "g(2x)^2/(a+1/2)-x".toList "f(x) = g(2x)^2 / (a + 1/2) - x".toList
          [(['x'], .number a)]).outcome = .ok r ∧ quartic.eval (.number a) = .ok r := by
  have reachable : afterSetUp.Reachable := ⟨.ofSettings {}, {}, setUp, rfl⟩
  have accepted : (afterSetUp.assign "f(x) = g(2x)^2 / (a + 1/2) - x".toList).outcome = .ok (.function quartic) := by
    decide +kernel
  have sides : Line.sides (Text.squeeze "f(x) = g(2x)^2 / (a + 1/2) - x".toList)
      "f(x) = g(2x)^2 / (a + 1/2) - x".toList = .ok ("f(x)".toList, "g(2x)^2/(a+1/2)-x".toList) := by decide +kernel
  refine ⟨reachable, accepted, define_eval reachable accepted sides (by decide) (by decide)
    (fun name mem other v found => ?_) fun name mem g found => ?_⟩
  · have names : Line.variableNames "g(2x)^2/(a+1/2)-x".toList = [['x'], ['a']] := by decide +kernel
    have value : afterSetUp.value? ['a'] = some (.rational (3 / 2)) := by decide +kernel
    rw [names] at mem
    rcases List.mem_cons.1 mem with rfl | mem
    · exact absurd rfl other
    · obtain rfl := List.mem_singleton.1 mem
      cases value.symm.trans found
      exact ⟨[], trivial⟩
  · have names : Line.functionNames "g(2x)^2/(a+1/2)-x".toList = [['g']] := by decide +kernel
    have value : afterSetUp.function? ['g'] = some square := by decide +kernel
    rw [names] at mem
    obtain rfl := List.mem_singleton.1 mem
    cases value.symm.trans found
    exact ⟨['t'], square_isScalar⟩

end Environment

end Reckoner
