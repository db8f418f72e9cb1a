import Reckoner.Proofs.CommandLine.Run
import Reckoner.Proofs.Expression.Agreement
import Reckoner.Proofs.Line.Parts
import Reckoner.Proofs.Session.Reachable
/-!
# Environments that agree

`Session.names_decide`: what a line gives depends on the names that are found in it only. Two sessions whose variables and
functions of these names are the same give the line the same results, with the same events on the way, and an assignment
stores the same definition in both.

Every lookup is of a name that is found: names in the expression, names in the entries of a matrix literal, and the name and
argument of a function that is shown or solved for its own parameter. The imaginary unit is never found, and no session has a
variable or a function of that name.
-/

namespace Reckoner

/-! ## Outcomes with events -/

/-- What follows a result matters only where there is one. -/
theorem Traced.bind_congr {α β : Type} {x : Traced α} {f g : α → Traced β} (h : ∀ a, x.outcome = .ok a → f a = g a) :
    x >>= f = x >>= g := by
  show bind x f = bind x g
  unfold bind
  cases outcome : x.outcome with
  | error e => rfl
  | ok a => simp only [h a outcome]

/-! ## Scopes -/

namespace Postfix

variable {scope scope' : Scope} {t source : Text} {form : Postfix}

theorem agreeOn_literal {ts : List Token} {tok : Token} (agree : Scope.AgreeOn t scope scope')
    (read : Token.tokenize t source = .ok ts) (mem : tok ∈ ts) (kind : tok.kind = .operand .matrix) :
    Scope.AgreeOn tok.value scope scope' where
  values name found := by
    rw [Line.mem_variableNames] at found
    exact agree.values name (Line.mem_variableNames.2 (Line.mem_names_of_literal read mem kind found))
  functions name found := by
    rw [Line.mem_functionNames] at found
    exact agree.functions name (Line.mem_functionNames.2 (Line.mem_names_of_literal read mem kind found))

/-- An expression has one value in scopes that agree on its names. -/
theorem eval_agree (agree : Scope.AgreeOn t scope scope') (h : parse t source = .ok form) :
    form.eval scope = form.eval scope' := by
  obtain ⟨ts, read, ordered⟩ := Outcome.bind_eq_ok.1 h
  obtain ⟨e, derived⟩ := Expression.tokenize_derives read
  rw [Expression.ofTokens_derives derived] at ordered
  cases ordered
  have standing : ∀ tok ∈ e.postorder, tok ∈ ts := fun tok => Expression.mem_of_mem_postorder derived
  have part := Line.Within.refl t
  simp only [eval, Scope.run, Expression.run_postorder]
  rw [Expression.evalWith_agree source (fun m mem => ?_) (fun m mem => ?_) fun m mem => ?_]
  · exact agree.values _ (Token.mem_variableNames_of_token read (standing _ mem) rfl part)
  · exact matrixValue_agree (agreeOn_literal agree read (standing _ mem) rfl)
  · exact agree.functions _ (Token.mem_functionNames_of_token read (standing _ mem) rfl part)

end Postfix

namespace Environment

/-! ## Environments -/

/-- Two environments give the names in a text the same meaning. -/
structure AgreeOn (t : Text) (env env' : Environment) : Prop where
  values : ∀ name ∈ Line.variableNames t, env.value? name = env'.value? name
  functions : ∀ name ∈ Line.functionNames t, env.function? name = env'.function? name

namespace AgreeOn

variable {env env' : Environment} {s t source : Text}

theorem part (agree : AgreeOn t env env') (within : Line.Within s t) : AgreeOn s env env' where
  values name found := by
    rw [Line.mem_variableNames] at found
    exact agree.values name (Line.mem_variableNames.2 (within.mem_names found))
  functions name found := by
    rw [Line.mem_functionNames] at found
    exact agree.functions name (Line.mem_functionNames.2 (within.mem_names found))

theorem checkNames (agree : AgreeOn t env env') (source : Text) (bound : List Text) :
    env.checkNames t source bound = env'.checkNames t source bound := by
  have unset : ((Line.variableNames t).filter fun name => !bound.contains name && (env.value? name).isNone) =
      (Line.variableNames t).filter fun name => !bound.contains name && (env'.value? name).isNone :=
    List.filter_congr fun name mem => by rw [agree.values name mem]
  have unknown : ((Line.functionNames t).filter fun name => (env.function? name).isNone) =
      (Line.functionNames t).filter fun name => (env'.function? name).isNone :=
    List.filter_congr fun name mem => by rw [agree.functions name mem]
  simp only [Environment.checkNames, unset, unknown]

theorem scope (agree : AgreeOn t env env') (bindings : List (Text × Value)) :
    Scope.AgreeOn t (env.scope bindings) (env'.scope bindings) where
  values name found := by
    show (bindings.lookup name).or (env.value? name) = (bindings.lookup name).or (env'.value? name)
    rw [agree.values name found]
  functions := agree.functions

theorem eval (agree : AgreeOn t env env') (source : Text) (bindings : List (Text × Value)) :
    env.eval t source bindings = env'.eval t source bindings := by
  unfold Environment.eval
  rw [agree.checkNames]
  refine Traced.bind_congr fun _ _ => Traced.bind_congr fun _ _ => Traced.bind_congr fun form parsed => ?_
  rw [Postfix.eval_agree (agree.scope bindings) parsed]

/-! ## Assignments -/

theorem readDefinition (agree : AgreeOn t env env') : env.readDefinition t = env'.readDefinition t := by
  simp only [Environment.readDefinition]
  split
  · rfl
  · refine Traced.bind_congr ?_
    rintro ⟨left, right⟩ cut
    have agreed := agree.part ((Line.part_squeeze t).sides cut).2.within
    simp only
    split
    · rfl
    · split
      · simp only [readFunction, agreed.eval]
      · simp only [readVariable, agreed.eval]

/-! ## Calls with the function's own parameter -/

end AgreeOn

variable {env env' : Environment} {s t line : Text}

/-- The imaginary unit is neither a variable nor a function. -/
theorem WellFormed.of_isUnit (h : env.WellFormed) {name : Text} (unit : Line.isUnit name = true) :
    env.value? name = none ∧ env.function? name = none := by
  have notName : ¬Line.IsName name := fun name => by
    rw [name.notUnit] at unit
    cases unit
  constructor
  · rw [Option.eq_none_iff_forall_ne_some]
    intro v found
    exact notName (h.variableNames (name, v) (mem_of_lookup found))
  · rw [Option.eq_none_iff_forall_ne_some]
    intro f found
    exact notName (h.functionNames (name, f) (mem_of_lookup found)).2.1

section Calls

variable (h : env.WellFormed) (h' : env'.WellFormed) (agree : AgreeOn t env env') (squeezed : Text.squeeze t = t)
include h h' agree squeezed

/-- The name and the argument of a call mean the same. -/
theorem AgreeOn.header {name argument : Text} (header : Line.header? t = some (name, argument)) :
    env.function? name = env'.function? name ∧ env.value? argument = env'.value? argument := by
  obtain ⟨called, given⟩ := Line.mem_names_of_header? squeezed header
  constructor
  · cases unit : Line.isUnit name with
    | false => exact agree.functions name (called unit)
    | true => rw [(h.of_isUnit unit).2, (h'.of_isUnit unit).2]
  · cases unit : Line.isUnit argument with
    | false => exact agree.values argument (given unit)
    | true => rw [(h.of_isUnit unit).1, (h'.of_isUnit unit).1]

theorem AgreeOn.ownCall? : env.ownCall? t = env'.ownCall? t := by
  unfold Environment.ownCall?
  cases header : Line.header? t with
  | none => rfl
  | some call =>
    obtain ⟨name, argument⟩ := call
    show (env.function? name >>= _ : Option NamedFunction) = (env'.function? name >>= _ : Option NamedFunction)
    rw [(AgreeOn.header h h' agree squeezed header).1]

theorem AgreeOn.shownFunction? : env.shownFunction? t = env'.shownFunction? t := by
  unfold Environment.shownFunction?
  rw [AgreeOn.ownCall? h h' agree squeezed]
  cases own : env'.ownCall? t with
  | none => rfl
  | some f =>
    have header : ∃ name, Line.header? t = some (name, f.parameter) := by
      unfold Environment.ownCall? at own
      obtain ⟨⟨name, argument⟩, header, own⟩ := Option.bind_eq_some_iff.1 own
      obtain ⟨g, -, own⟩ := Option.bind_eq_some_iff.1 own
      split at own
      next same =>
        cases own
        exact ⟨name, same ▸ header⟩
      · cases own
    obtain ⟨name, header⟩ := header
    simp only [Option.filter_some, (AgreeOn.header h h' agree squeezed header).2]

end Calls

/-! ## Computations and equations -/

theorem AgreeOn.unknowns (h : env.WellFormed) (h' : env'.WellFormed) {left right : Text}
    (hl : AgreeOn left env env') (hr : AgreeOn right env env') (sl : Text.squeeze left = left)
    (sr : Text.squeeze right = right) : env.unknowns left right = env'.unknowns left right := by
  have free : (Text.distinct (Line.variableNames left ++ Line.variableNames right)).filter
        (fun name => (env.value? name).isNone) =
      (Text.distinct (Line.variableNames left ++ Line.variableNames right)).filter
        fun name => (env'.value? name).isNone := by
    refine List.filter_congr fun name mem => ?_
    rcases List.mem_append.1 (Text.mem_distinct.1 mem) with mem | mem
    · rw [hl.values name mem]
    · rw [hr.values name mem]
  simp only [Environment.unknowns, free, List.foldl_cons, List.foldl_nil, hl.ownCall? h h' sl, hr.ownCall? h h' sr]

/-- Each side of an equation is a part of the line, or the zero that stands for a side left out. -/
theorem part_of_equationSides {left right : Text} (cut : equationSides line = .ok (left, right)) :
    Line.Part left line ∧ (Line.Part right line ∨ right = ['0']) := by
  have body : Line.Part ((Text.chop? '?' (Text.squeeze line)).getD (Text.squeeze line)) line := by
    cases chopped : Text.chop? '?' (Text.squeeze line) with
    | none => exact Line.part_squeeze line
    | some body => exact (Line.part_squeeze line).chop? (by decide) (by decide) chopped
  simp only [equationSides] at cut
  split at cut
  · obtain ⟨⟨l, r⟩, found, cut⟩ := Outcome.bind_eq_ok.1 cut
    split at cut
    · cases cut
    · cases cut
      obtain ⟨first, second⟩ := body.sides found
      exact ⟨first, .inl second⟩
  · obtain ⟨_, ⟨⟩, cut⟩ := Outcome.bind_eq_ok.1 cut
    split at cut
    · cases cut
    · cases cut
      exact ⟨body, .inr rfl⟩

/-- What a request asks for is a part of the line. -/
theorem part_of_requested (asked : requested line = .ok t) : Line.Part t line := by
  have whole := Line.part_squeeze line
  simp only [requested] at asked
  split at asked
  next body chopped =>
    cases asked
    have body := whole.chop? (by decide) (by decide) chopped
    cases marked : Text.chop? '=' _ with
    | none => exact body
    | some rest => exact body.chop? (by decide) (by decide) marked
  · split at asked
    · exact absurd asked Outcome.refuse_ne_ok
    · cases asked
      exact whole

section Lines

variable (h : env.WellFormed) (h' : env'.WellFormed) (agree : AgreeOn line env env')
include h h' agree

theorem AgreeOn.solveEquation (places : Nat) : env.solveEquation places line = env'.solveEquation places line := by
  simp only [Environment.solveEquation]
  refine Traced.bind_congr ?_
  rintro ⟨left, right⟩ cut
  obtain ⟨first, second⟩ := part_of_equationSides cut
  have hl : AgreeOn left env env' := agree.part first.within
  have hr : AgreeOn right env env' ∧ Text.squeeze right = right := by
    rcases second with second | rfl
    · exact ⟨agree.part second.within, second.squeezed⟩
    · have noNames : Line.names ['0'] = [] := by decide +kernel
      refine ⟨⟨fun name found => ?_, fun name found => ?_⟩, rfl⟩
      · rw [Line.mem_variableNames, noNames] at found
        cases found
      · rw [Line.mem_functionNames, noNames] at found
        cases found
  simp only [hl.unknowns h h' hr.1 first.squeezed hr.2, difference, hl.eval, hr.1.eval]

theorem AgreeOn.answer (places : Nat) : env.answer places line = env'.answer places line := by
  simp only [Environment.answer]
  refine Traced.bind_congr fun kind _ => ?_
  split
  · rw [agree.solveEquation h h' places]
  · refine Traced.bind_congr fun t asked => ?_
    have part := part_of_requested asked
    have agreed : AgreeOn t env env' := agree.part part.within
    rw [agreed.shownFunction? h h' part.squeezed]
    simp only [agreed.eval]

end Lines

end Environment

/-! ## The same values -/

/-- A rational number is no complex one that is not real. -/
theorem Number.eq_of_toGaussian_eq {a b : Number} (ha : (Value.number a).Constant) (hb : (Value.number b).Constant)
    (equal : a.toGaussian = b.toGaussian) : a = b := by
  cases a with
  | rational p =>
    cases b with
    | rational q => exact congrArg rational (congrArg Gaussian.re equal)
    | complex z => exact absurd (congrArg Gaussian.im equal).symm hb
  | complex z =>
    cases b with
    | rational q => exact absurd (congrArg Gaussian.im equal) ha
    | complex w => exact congrArg complex equal

namespace Value

/-- Among values in their simplest kind, those that are the same are equal. -/
theorem eq_of_same {v w : Value} (hv : v.Constant ∨ ∃ p, v = .polynomial p ∧ 1 ≤ p.degree)
    (hw : w.Constant ∨ ∃ p, w = .polynomial p ∧ 1 ≤ p.degree) (same : v.same w = true) : v = w := by
  have varies : ∀ {p : Poly}, 1 ≤ p.degree → p.isConstant = false := by
    intro p degree
    rw [Poly.isConstant, beq_eq_false_iff_ne]
    omega
  rcases hv with hv | ⟨p, rfl, hp⟩
  · rcases hw with hw | ⟨q, rfl, hq⟩
    · cases v with
      | number a =>
        cases w with
        | number b =>
          have equal : a.toGaussian = b.toGaussian := by simpa [Value.same, Number.same] using same
          exact congrArg number (Number.eq_of_toGaussian_eq hv hw equal)
        | matrix b => cases same
        | polynomial q => cases hw
      | matrix a =>
        cases w with
        | number b => cases same
        | matrix b => simpa [Value.same] using same
        | polynomial q => cases hw
      | polynomial p => cases hv
    · cases v with
      | number a | matrix a => simp [Value.same, varies hq] at same
      | polynomial p => cases hv
  · rcases hw with hw | ⟨q, rfl, hq⟩
    · cases w with
      | number a | matrix a => simp [Value.same, varies hp] at same
      | polynomial p => cases hw
    · simp only [Value.same, varies hp, Bool.false_and, Bool.false_eq_true, if_false, Bool.and_eq_true, beq_iff_eq] at same
      obtain ⟨_, _, _, _⟩ := p
      obtain ⟨_, _, _, _⟩ := q
      obtain ⟨rfl, rfl⟩ := same
      rfl

end Value

namespace Environment

/-- Both environments lack a meaning for a name in a text, or both have the same. -/
structure SameOn (t : Text) (env env' : Environment) : Prop where
  values : ∀ name ∈ Line.variableNames t,
    Option.Rel (fun v w => v.same w = true) (env.value? name) (env'.value? name)
  functions : ∀ name ∈ Line.functionNames t,
    Option.Rel (fun f g => f.same g = true) (env.function? name) (env'.function? name)

variable {env env' : Environment} {t : Text}

theorem eq_of_rel {α : Type} {r : α → α → Prop} {a b : Option α} (rel : Option.Rel r a b)
    (each : ∀ v w, a = some v → b = some w → r v w → v = w) : a = b := by
  cases rel with
  | none => rfl
  | some h => exact congrArg some (each _ _ rfl rfl h)

theorem SameOn.agreeOn (same : SameOn t env env') (h : env.WellFormed) (h' : env'.WellFormed) :
    AgreeOn t env env' where
  values name found := by
    refine eq_of_rel (same.values name found) fun v w left right equal => ?_
    exact Value.eq_of_same (.inl (h.variableValues _ (mem_of_lookup left)))
      (.inl (h'.variableValues _ (mem_of_lookup right))) equal
  functions name found := by
    refine eq_of_rel (same.functions name found) fun f g left right equal => ?_
    simp only [NamedFunction.same, Bool.and_eq_true, beq_iff_eq] at equal
    obtain ⟨⟨sameName, sameParameter⟩, sameBody⟩ := equal
    have hf := h.functionBodies _ (mem_of_lookup left)
    have hg := h'.functionBodies _ (mem_of_lookup right)
    have body : f.body = g.body :=
      Value.eq_of_same (hf.imp id fun ⟨p, eq, _, degree⟩ => ⟨p, eq, degree⟩)
        (hg.imp id fun ⟨p, eq, _, degree⟩ => ⟨p, eq, degree⟩) sameBody
    cases f
    cases g
    simp_all

end Environment

/-! ## Sessions -/

namespace Session

/-- What a line gives depends on the names in it only: in two sessions that give these names the same meanings, the results,
the failures and the events are the same, and an assignment that is accepted sets the same definition. -/
theorem names_decide {env env' : Environment} {line : Text} (reachable : env.Reachable) (reachable' : env'.Reachable)
    (same : env.SameOn line env') (display : Display) (sharedSettings : Settings) :
    let s : Session := ⟨display, sharedSettings, env⟩
    let s' : Session := ⟨display, sharedSettings, env'⟩
    (s.assign line).2 = (s'.assign line).2 ∧ s.compute line = s'.compute line ∧ s.solve line = s'.solve line ∧
      env.assign line = env'.assign line ∧
      ∀ d, (env.assign line).outcome = .ok d →
        env.Sets (s.assign line).1.environment d ∧ env'.Sets (s'.assign line).1.environment d := by
  intro s s'
  have h := reachable.wellFormed
  have h' := reachable'.wellFormed
  have agree := same.agreeOn h h'
  have assigned : env.assign line = env'.assign line := by simp only [Environment.assign, agree.readDefinition]
  have computed : s.compute line = s'.compute line := by
    simp only [compute, answer, Environment.compute, s, s', agree.answer h h']
  have solved : s.solve line = s'.solve line := by
    simp only [solve, Environment.solve, s, s', agree.solveEquation h h']
  refine ⟨by simp only [assign, s, s', assigned], computed, solved, assigned, fun d accepted => ?_⟩
  have accepted' : (env'.assign line).outcome = .ok d := assigned ▸ accepted
  simp only [assign, afterDefinition, s, s', accepted, accepted']
  exact ⟨Environment.sets_define env d, Environment.sets_define env' d⟩

/-- The environment after some commands to a new session. -/
def environmentAfter (cs : List Command) : Environment := (cs.foldl after (start {} {})).environment

/-- Two histories with the same `a` and the same `g`, in other orders and among other names. -/
theorem names_decide_otherNames :
    let line := "c = [[a, g(3)]]".toList
    let env := environmentAfter [.assign "b = 5".toList, .assign "a = 4/2".toList, .assign "g(t) = t^2".toList]
    let env' := environmentAfter [.assign "g(t) = t*t".toList, .assign "c(x) = x".toList, .assign "a = 2".toList]
    let row := Definition.variable ['c'] (.matrix ⟨1, 2, by decide, by decide, .ofFn fun _ j => if j = 0 then 2 else 9⟩)
    env ≠ env' ∧ env.SameOn line env' ∧ (env.assign line).outcome = .ok row ∧ (env'.assign line).outcome = .ok row := by
  intro line env env' row
  have same : env.SameOn line env' := by
    have values : Line.variableNames line = [['c'], ['a']] := by decide +kernel
    have functions : Line.functionNames line = [['g']] := by decide +kernel
    have unset : env.value? ['c'] = none ∧ env'.value? ['c'] = none := by decide +kernel
    have set : env.value? ['a'] = some (.rational 2) ∧ env'.value? ['a'] = some (.rational 2) := by decide +kernel
    have defined : env.function? ['g'] = env'.function? ['g'] ∧
        ∃ f, env.function? ['g'] = some f ∧ f.same f = true := by
      refine ⟨by decide +kernel, ⟨['g'], ['t'], .polynomial (.ofTerms ['t'] [(2, .scalar 1)])⟩, ?_⟩
      decide +kernel
    constructor
    · rw [values, List.forall_mem_cons, List.forall_mem_singleton, unset.1, unset.2, set.1, set.2]
      exact ⟨.none, .some (by decide +kernel)⟩
    · obtain ⟨equal, f, found, self⟩ := defined
      rw [functions, List.forall_mem_singleton, ← equal, found]
      exact .some self
  have stored : (env.assign line).outcome = .ok row := by decide +kernel
  have reachable : env.Reachable := ⟨.ofSettings {}, {}, _, rfl⟩
  have reachable' : env'.Reachable := ⟨.ofSettings {}, {}, _, rfl⟩
  have assigned := (names_decide reachable reachable' same (.ofSettings {}) {}).2.2.2.1
  exact ⟨by decide +kernel, same, stored, by rw [← assigned, stored]⟩

end Session

end Reckoner
