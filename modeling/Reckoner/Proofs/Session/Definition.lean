import Reckoner.Proofs.Expression.Parsing
import Reckoner.Proofs.Expression.Conversion
import Reckoner.Session.Assignment
/-!
# Lines that define something

What a line that is accepted as an assignment defines, in terms of the value of its expression, and what that sets: one
name of one kind, and nothing else.
-/

namespace Reckoner

/-! ## Outcomes with events -/

namespace Traced

variable {α β : Type}

@[simp] theorem outcome_lift (x : Outcome α) : (lift x).outcome = x := rfl

@[simp] theorem outcome_pure (a : α) : (pure a : Traced α).outcome = .ok a := rfl

@[simp] theorem outcome_record (e : Event) : (record e).outcome = .ok () := rfl

@[simp] theorem outcome_monadLift (x : Outcome α) : (monadLift x : Traced α).outcome = x := rfl

theorem outcome_bind (x : Traced α) (f : α → Traced β) :
    (x >>= f).outcome = x.outcome >>= fun a => (f a).outcome := by
  show (bind x f).outcome = _
  unfold bind
  cases x.outcome <;> rfl

theorem outcome_bind_eq_ok {x : Traced α} {f : α → Traced β} {b : β} :
    (x >>= f).outcome = .ok b ↔ ∃ a, x.outcome = .ok a ∧ (f a).outcome = .ok b := by
  rw [outcome_bind, Outcome.bind_eq_ok]

@[simp] theorem outcome_reporting (input : Text) (x : Traced α) : (reporting input x).outcome = x.outcome := by
  unfold reporting
  split <;> rfl

end Traced

namespace Environment

variable {env : Environment}

/-! ## Expressions -/

/-- The check of names asks that each name is bound or defined. -/
theorem checkNames_eq_ok {t source : Text} {bound : List Text} : env.checkNames t source bound = .ok () ↔
    (∀ name ∈ Line.variableNames t, name ∈ bound ∨ (env.value? name).isSome = true) ∧
      ∀ name ∈ Line.functionNames t, (env.function? name).isSome = true := by
  have unset : ((Line.variableNames t).filter fun name => !bound.contains name && (env.value? name).isNone) = [] ↔
      ∀ name ∈ Line.variableNames t, name ∈ bound ∨ (env.value? name).isSome = true := by
    simp [List.filter_eq_nil_iff, or_iff_not_imp_left, Option.isSome_iff_ne_none]
  have unknown : ((Line.functionNames t).filter fun name => (env.function? name).isNone) = [] ↔
      ∀ name ∈ Line.functionNames t, (env.function? name).isSome = true := by
    simp [List.filter_eq_nil_iff, Option.isSome_iff_ne_none]
  rw [← unset, ← unknown, ← List.isEmpty_iff, ← List.isEmpty_iff]
  simp only [checkNames]
  cases (List.filter _ (Line.variableNames t)).isEmpty with
  | false => exact ⟨nofun, nofun⟩
  | true =>
    cases (List.filter _ (Line.functionNames t)).isEmpty with
    | false => exact ⟨nofun, nofun⟩
    | true => exact ⟨fun _ => ⟨rfl, rfl⟩, fun _ => rfl⟩

/-- An expression is evaluated if its brackets match, its names are defined, and its tokens have a value. -/
theorem outcome_eval_eq_ok {t source : Text} {bindings : List (Text × Value)} {v : Value} :
    (env.eval t source bindings).outcome = .ok v ↔
      Line.checkBrackets t source = .ok () ∧ env.checkNames t source (bindings.map (·.1)) = .ok () ∧
        ∃ ts e, Token.tokenize t source = .ok ts ∧ Expression.Derives .sum e ts ∧
          e.eval (env.scope bindings) source = .ok v := by
  simp only [eval, Traced.outcome_bind_eq_ok, Traced.outcome_monadLift, Traced.outcome_record, Postfix.parse,
    Outcome.bind_eq_ok]
  constructor
  · rintro ⟨⟨⟩, brackets, ⟨⟩, names, form, ⟨ts, read, ordered⟩, -, -, value⟩
    obtain ⟨e, derived⟩ := Expression.tokenize_derives read
    rw [Expression.ofTokens_derives derived] at ordered
    cases ordered
    rw [Expression.eval_postorder] at value
    exact ⟨brackets, names, ts, e, read, derived, value⟩
  · rintro ⟨brackets, names, ts, e, read, derived, value⟩
    refine ⟨(), brackets, (), names, _, ⟨ts, read, Expression.ofTokens_derives derived source⟩, (), trivial, ?_⟩
    rwa [Expression.eval_postorder]

/-! ## What a line defines -/

/-- What an accepted assignment defines. -/
inductive Defines (env : Environment) (line : Text) : Definition → Prop where
  | ofVariable {name right v} : Line.sides (Text.squeeze line) line = .ok (name, right) → Line.header? name = none →
    Line.checkName name line = .ok () → (env.eval right line []).outcome = .ok v → Defines env line (.variable name v)
  | ofFunction {left body name parameter v f} : Line.sides (Text.squeeze line) line = .ok (left, body) →
    Line.header? left = some (name, parameter) → Line.checkName name line = .ok () →
    Line.checkName parameter line = .ok () → (env.eval body line (unknown parameter)).outcome = .ok v →
    NamedFunction.make name parameter v = .ok f → Defines env line (.function f)

theorem defines_of_assign {line : Text} {d : Definition} (h : (env.assign line).outcome = .ok d) :
    Defines env line d := by
  rw [assign, Traced.outcome_reporting] at h
  simp only [readDefinition] at h
  split at h
  · cases h
  · simp only [Traced.outcome_bind_eq_ok, Traced.outcome_monadLift] at h
    obtain ⟨⟨left, right⟩, sides, h⟩ := h
    split at h
    · cases h
    · split at h
      next name parameter header =>
        simp only [readFunction, Traced.outcome_bind_eq_ok, Traced.outcome_monadLift, Traced.outcome_pure] at h
        obtain ⟨⟨⟩, named, ⟨⟩, bound, v, value, f, made, -, -, ⟨⟩⟩ := h
        exact .ofFunction sides header named bound value made
      next header =>
        simp only [readVariable, Traced.outcome_bind_eq_ok, Traced.outcome_monadLift, Traced.outcome_pure] at h
        obtain ⟨⟨⟩, named, v, value, -, -, ⟨⟩⟩ := h
        exact .ofVariable sides header named value

/-! ## What a definition sets -/

section Entries

variable {α : Type} {entries : List (Text × α)} {name : Text} {a : α}

theorem mem_setEntry {e : Text × α} (h : e ∈ setEntry entries name a) : e = (name, a) ∨ e ∈ entries := by
  unfold setEntry at h
  split at h
  · obtain ⟨d, mem, rfl⟩ := List.mem_map.1 h
    split
    · exact .inl rfl
    · exact .inr mem
  · rcases List.mem_append.1 h with mem | mem
    · exact .inr mem
    · exact .inl (List.mem_singleton.1 mem)

theorem lookup_map_self (h : entries.any (·.1 == name) = true) :
    (entries.map fun e => if e.1 = name then (name, a) else e).lookup name = some a := by
  induction entries with
  | nil => simp at h
  | cons e entries ih =>
    by_cases same : e.1 = name
    · simp [same]
    · have other : name ≠ e.1 := fun eq => same eq.symm
      rw [List.map_cons, if_neg same, List.lookup_cons, beq_false_of_ne other]
      exact ih (by simpa [same] using h)

theorem lookup_map_other {other : Text} (h : other ≠ name) :
    (entries.map fun e => if e.1 = name then (name, a) else e).lookup other = entries.lookup other := by
  induction entries with
  | nil => rfl
  | cons e entries ih =>
    obtain ⟨key, b⟩ := e
    by_cases same : key = name
    · subst same
      rw [List.map_cons, if_pos rfl, List.lookup_cons, List.lookup_cons, beq_false_of_ne h]
      exact ih
    · rw [List.map_cons, if_neg same, List.lookup_cons, List.lookup_cons, ih]

/-- The entry that was set is found. -/
theorem lookup_setEntry_self : (setEntry entries name a).lookup name = some a := by
  unfold setEntry
  split
  next present => exact lookup_map_self present
  next absent =>
    have none : entries.lookup name = none := by
      rw [List.lookup_eq_none_iff]
      intro e mem
      have differs : e.1 ≠ name := by simpa using List.any_eq_false.1 (Bool.eq_false_iff.2 absent) e mem
      simpa using differs.symm
    rw [List.lookup_append, none]
    simp

/-- Every other entry is found as before. -/
theorem lookup_setEntry_other {other : Text} (h : other ≠ name) :
    (setEntry entries name a).lookup other = entries.lookup other := by
  unfold setEntry
  split
  · exact lookup_map_other h
  · rw [List.lookup_append, List.lookup_cons, beq_false_of_ne h]
    simp

end Entries

end Environment

end Reckoner
