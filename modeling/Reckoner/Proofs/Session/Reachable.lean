import Reckoner.Proofs.Expression.Evaluation
import Reckoner.Proofs.Line.Names
import Reckoner.Proofs.Session.Definition
import Reckoner.Proofs.Value.Variable
import Reckoner.Session.Command
/-!
# Reachable environments

What holds of the variables and functions of a session, whatever it was asked: names are words other than the imaginary
unit, and what is stored under them is in its simplest kind. A command that succeeds stores the value of an expression,
and such a value has a variable only if the expression was given one; every other command leaves what is there or removes
some of it.
-/

namespace Reckoner

open CharClass

/-! ## Values of expressions -/

namespace Postfix

theorem matrixOf_over {rows : List (List Value)} {v : Value} (x : Text) (h : matrixOf rows = .ok v) : v.Over x := by
  obtain ⟨cells, -, h⟩ := Outcome.bind_eq_ok.1 h
  obtain ⟨m, -, h⟩ := Outcome.bind_eq_ok.1 h
  cases h
  exact Value.over_matrix m

theorem matrixValue_over {scope : Scope} {literal : Text} {v : Value} (x : Text) (h : matrixValue scope literal = .ok v) :
    v.Over x := by
  obtain ⟨rows, -, h⟩ := Outcome.bind_eq_ok.1 h
  exact matrixOf_over x h

end Postfix

theorem NamedFunction.eval_over {f : NamedFunction} {v r : Value} {x : Text} (hv : v.Over x) (h : f.eval v = .ok r) :
    r.Over x := by
  unfold NamedFunction.eval at h
  split at h
  · exact Poly.eval_over hv h
  next other =>
    cases h
    exact fun p eq => absurd eq (other p)

/-- An expression whose names stand for values in `x` has a value in `x`. -/
theorem Expression.eval_over {scope : Scope} {source x : Text} {e : Expression} {v : Value}
    (names : ∀ name w, scope.value? name = some w → w.Over x) (h : e.eval scope source = .ok v) :
    ∃ w : Value, w.Over x ∧ v = w.simplify := by
  obtain ⟨w, run, h⟩ := Outcome.bind_eq_ok.1 h
  cases h
  refine ⟨w, evalWith_preserves (P := Value.Over x) ?_ ?_ ?_ ?_ run, rfl⟩
  · intro o m _ a value
    cases o with
    | number | imaginary => exact Value.over_of_map value fun _ _ => Value.over_number _
    | matrix => exact Postfix.matrixValue_over x value
    | identifier =>
      simp only [Scope.meaning, Scope.operandValue] at value
      split at value
      next b found =>
        cases value
        exact names _ _ found
      · cases value
  · intro m _ a b ha value
    simp only [Scope.meaning, Scope.callValue] at value
    split at value
    · exact NamedFunction.eval_over ha value
    · cases value
  · rintro a _ ha ⟨⟩
    exact ha.neg
  · intro o t a b c ha hb value
    exact Operator.over_of_apply ha hb value

/-! ## The invariant -/

namespace Environment

/-- What holds of the variables and functions of a session. -/
structure WellFormed (env : Environment) : Prop where
  variableNames : ∀ e ∈ env.values, Line.IsName e.1
  variableValues : ∀ e ∈ env.values, e.2.Constant
  functionNames : ∀ e ∈ env.functions, e.2.name = e.1 ∧ Line.IsName e.1 ∧ Line.IsName e.2.parameter
  functionBodies : ∀ e ∈ env.functions,
    e.2.body.Constant ∨ ∃ p, e.2.body = .polynomial p ∧ p.var = e.2.parameter ∧ 1 ≤ p.degree

variable {env : Environment}

theorem wellFormed_empty : WellFormed {} := by
  constructor <;> simp

theorem mem_of_lookup {α : Type} {entries : List (Text × α)} {name : Text} {a : α}
    (h : entries.lookup name = some a) : (name, a) ∈ entries := by
  obtain ⟨before, after, split, -⟩ := List.lookup_eq_some_iff.1 h
  simp [split]

/-- Without bindings an expression has a constant as its value. -/
theorem WellFormed.constant_of_eval (h : env.WellFormed) {t source : Text} {v : Value}
    (value : (env.eval t source []).outcome = .ok v) : v.Constant := by
  obtain ⟨-, -, ts, e, -, -, value⟩ := outcome_eval_eq_ok.1 value
  have everywhere : ∀ x, ∃ w : Value, w.Over x ∧ v = w.simplify := by
    intro x
    refine Expression.eval_over (fun name w found => ?_) value
    exact Value.over_of_constant (h.variableValues (name, w) (mem_of_lookup found)) x
  -- A polynomial has one variable only, and the value has every variable that a polynomial could have.
  obtain ⟨w, hw, rfl⟩ := everywhere ['a']
  rcases hw.simplify with constant | ⟨p, eq, var, -⟩
  · exact constant
  · obtain ⟨u, hu, same⟩ := everywhere ['b']
    have other := hu.simplify_over p (same ▸ eq)
    rw [var] at other
    cases other

/-- Where the only binding is an unknown, an expression has a constant or a polynomial in the unknown as its value. -/
theorem WellFormed.value_of_eval (h : env.WellFormed) {t source x : Text} {v : Value}
    (value : (env.eval t source (unknown x)).outcome = .ok v) :
    ∃ w : Value, w.Over x ∧ v = w.simplify := by
  obtain ⟨-, -, ts, e, -, -, value⟩ := outcome_eval_eq_ok.1 value
  refine Expression.eval_over (fun name w found => ?_) value
  rcases Option.or_eq_some_iff.1 found with bound | ⟨-, found⟩
  · obtain ⟨⟩ := List.mem_singleton.1 (mem_of_lookup bound)
    exact Value.over_polynomial rfl
  · exact Value.over_of_constant (h.variableValues (name, w) (mem_of_lookup found)) x

theorem WellFormed.setVariable (h : env.WellFormed) {name : Text} {v : Value} (named : Line.IsName name)
    (constant : v.Constant) : (env.setVariable name v).WellFormed where
  variableNames e mem := by
    rcases mem_setEntry mem with rfl | mem
    · exact named
    · exact h.variableNames e mem
  variableValues e mem := by
    rcases mem_setEntry mem with rfl | mem
    · exact constant
    · exact h.variableValues e mem
  functionNames := h.functionNames
  functionBodies := h.functionBodies

theorem WellFormed.setFunction (h : env.WellFormed) {f : NamedFunction} (named : Line.IsName f.name)
    (bound : Line.IsName f.parameter)
    (body : f.body.Constant ∨ ∃ p, f.body = .polynomial p ∧ p.var = f.parameter ∧ 1 ≤ p.degree) :
    (env.setFunction f).WellFormed where
  variableNames := h.variableNames
  variableValues := h.variableValues
  functionNames e mem := by
    rcases mem_setEntry mem with rfl | mem
    · exact ⟨rfl, named, bound⟩
    · exact h.functionNames e mem
  functionBodies e mem := by
    rcases mem_setEntry mem with rfl | mem
    · exact body
    · exact h.functionBodies e mem

end Environment

/-- A function made of a value in its parameter has that value, in its simplest kind, as body. -/
theorem NamedFunction.make_eq_ok {name parameter : Text} {v : Value} {f : NamedFunction}
    (h : make name parameter v = .ok f) : f = ⟨name, parameter, v.simplify⟩ := by
  unfold make at h
  split at h
  next p eq =>
    split at h
    · cases h
      rw [eq]
    · cases h
  · cases h
    rfl

namespace Environment

variable {env : Environment}

/-- What an accepted line defines keeps the invariant. -/
theorem WellFormed.define (h : env.WellFormed) {line : Text} {d : Definition}
    (defined : (env.assign line).outcome = .ok d) : (env.define d).WellFormed := by
  cases defines_of_assign defined with
  | ofVariable _ _ named value => exact h.setVariable (Line.isName_of_checkName named) (h.constant_of_eval value)
  | ofFunction _ _ named bound value made =>
    cases NamedFunction.make_eq_ok made
    refine h.setFunction (Line.isName_of_checkName named) (Line.isName_of_checkName bound) ?_
    obtain ⟨w, hw, rfl⟩ := h.value_of_eval value
    exact hw.simplify_over.simplify

end Environment

namespace Session

variable {s : Session}

theorem wellFormed_afterDefinition (h : s.environment.WellFormed) (line : Text) :
    (s.afterDefinition (s.environment.assign line)).environment.WellFormed := by
  unfold afterDefinition
  split
  next d defined => exact h.define defined
  · exact h

/-- No command breaks the invariant. -/
theorem wellFormed_after (h : s.environment.WellFormed) (c : Command) : (s.after c).environment.WellFormed := by
  cases c with
  | assign line => exact wellFormed_afterDefinition h line
  | compute line | solve line => exact h
  | evaluate line =>
    simp only [after, evaluate]
    split
    · exact wellFormed_afterDefinition h line
    · exact h
  | clearVariables => exact ⟨List.forall_mem_nil _, List.forall_mem_nil _, h.functionNames, h.functionBodies⟩
  | clearFunctions => exact ⟨h.variableNames, h.variableValues, List.forall_mem_nil _, List.forall_mem_nil _⟩

theorem wellFormed_foldl (h : s.environment.WellFormed) (cs : List Command) :
    (cs.foldl after s).environment.WellFormed := by
  induction cs generalizing s with
  | nil => exact h
  | cons c cs ih => exact ih (wellFormed_after h c)

/-- The environment that any commands leave, whether they succeed or fail, is well formed. -/
theorem environment_wellFormed (display : Display) (sharedSettings : Settings) (cs : List Command) :
    (cs.foldl after ⟨display, sharedSettings, {}⟩).environment.WellFormed :=
  wellFormed_foldl Environment.wellFormed_empty cs

end Session

namespace Environment

/-- Whether some commands leave the environment. -/
def Reachable (env : Environment) : Prop :=
  ∃ (display : Display) (sharedSettings : Settings) (cs : List Command),
    env = (cs.foldl Session.after ⟨display, sharedSettings, {}⟩).environment

theorem Reachable.wellFormed {env : Environment} (h : env.Reachable) : env.WellFormed := by
  obtain ⟨display, sharedSettings, cs, rfl⟩ := h
  exact Session.wellFormed_foldl wellFormed_empty cs

end Environment

end Reckoner
