import Reckoner.Proofs.Expression.Acceptance
import Reckoner.Proofs.Line.Parts
import Reckoner.Proofs.Session.Definition
import Reckoner.Proofs.Token.Brackets
import Reckoner.Proofs.Token.Names
/-!
# Checks before an evaluation

`Environment.checks_sound`: a text whose brackets and names have been checked is read without a fault at a bracket, and what
is read looks up no name that nothing defines, in the text itself or in an entry of a matrix literal. The names that the
check goes through are those of the tokens.

Every token that is looked up is a name found in the text, and the entries of a literal are parts of the text, so that a scope
which knows the names of the text knows all of them.
-/

namespace Reckoner

open Outcome (FailsOnly)

/-! ## Undefined names -/

/-- Whether a failure is a name that nothing defines. -/
def Failure.isUndefinedName : Failure → Bool
  | .fault f => f.family = .undefinedName
  | _ => false

/-- An outcome that does not fail for a name that nothing defines. -/
abbrev Outcome.Named {α : Type} (x : Outcome α) : Prop := x.FailsOnly (!·.isUndefinedName)

theorem Failure.named_of_isArithmetic {e : Failure} (h : e.isArithmetic = true) : (!e.isUndefinedName) = true := by
  cases e with
  | fault f => cases f <;> first | rfl | cases h
  | _ => rfl

theorem Failure.named_of_isReading {e : Failure} (h : e.isReading = true) : (!e.isUndefinedName) = true := by
  cases e with
  | fault f => cases f <;> first | rfl | cases h
  | _ => cases h

/-! ## Scopes -/

/-- A scope knows every name in a text. -/
structure Scope.Knows (scope : Scope) (t : Text) : Prop where
  values : ∀ name ∈ Line.variableNames t, (scope.value? name).isSome = true
  functions : ∀ name ∈ Line.functionNames t, (scope.functions.lookup name).isSome = true

namespace Scope.Knows

variable {scope : Scope} {s t source : Text} {ts : List Token} {e : Expression}

/-- Fewer names are known as well. -/
theorem of_names (known : scope.Knows t) (fewer : ∀ name ∈ Line.names s, name ∈ Line.names t) : scope.Knows s where
  values name found := known.values name (Line.mem_variableNames.2 (fewer _ (Line.mem_variableNames.1 found)))
  functions name found := known.functions name (Line.mem_functionNames.2 (fewer _ (Line.mem_functionNames.1 found)))

theorem part (known : scope.Knows t) (within : Line.Within s t) : scope.Knows s := known.of_names fun _ => within.mem_names

theorem literal (known : scope.Knows t) (read : Token.tokenize t source = .ok ts) {tok : Token} (mem : tok ∈ ts)
    (kind : tok.kind = .operand .matrix) : scope.Knows tok.value :=
  known.of_names fun _ => Line.mem_names_of_literal read mem kind

/-- What is read from a text looks up the names in it only. -/
theorem run (known : scope.Knows t) (read : Token.tokenize t source = .ok ts) (derived : Expression.Derives .sum e ts)
    {readMatrix : Text → Outcome Value}
    (matrices : ∀ tok ∈ ts, tok.kind = .operand .matrix → Outcome.Named (readMatrix tok.value)) :
    Outcome.Named (scope.run readMatrix ⟨e.postorder, source⟩) := by
  have standing : ∀ tok ∈ e.postorder, tok ∈ ts := fun tok => Expression.mem_of_mem_postorder derived
  have whole := Line.Within.refl t
  refine Scope.run_failsOnly (fun _ => Failure.named_of_isArithmetic) (fun m mem => ?_) (fun m mem => .inl ?_)
    fun m mem => .inl ?_
  · exact matrices _ (standing _ mem) rfl
  · exact known.values _ (Token.mem_variableNames_of_token read (standing _ mem) rfl whole)
  · exact known.functions _ (Token.mem_functionNames_of_token read (standing _ mem) rfl whole)

/-- Reading a text and running what is read fails for no unknown name, unless a matrix literal in it does. -/
theorem parse (known : scope.Knows t) {readMatrix : Text → Outcome Value}
    (matrices : ∀ literal, scope.Knows literal → Outcome.Named (readMatrix literal)) :
    Outcome.Named (Postfix.parse t source >>= fun p => scope.run readMatrix p) := by
  refine .bind ((Postfix.parse_reading t source).mono fun _ => Failure.named_of_isReading) fun p parsed => ?_
  obtain ⟨ts, read, ordered⟩ := Outcome.bind_eq_ok.1 parsed
  obtain ⟨e, derived⟩ := Expression.tokenize_derives read
  cases ordered.symm.trans (Expression.ofTokens_derives derived source)
  exact known.run read derived fun tok mem kind => matrices _ (known.literal read mem kind)

theorem matrixValue {literal : Text} (known : scope.Knows literal) : Outcome.Named (Postfix.matrixValue scope literal) := by
  refine .bind (Postfix.readRows_failsOnly (fun _ => Failure.named_of_isReading) fun entry part => ?_) fun rows _ => ?_
  · exact (known.part part).parse fun _ _ => .refuse rfl
  · exact (Postfix.matrixOf_refusing rows).arithmetic.mono fun _ => Failure.named_of_isArithmetic

/-- A text whose names are known evaluates, or fails for something else than a name. -/
theorem eval (known : scope.Knows t) : Outcome.Named (Postfix.parse t source >>= fun p => p.eval scope) :=
  known.parse fun _ => matrixValue

end Scope.Knows

/-! ## Environments -/

namespace Environment

variable {env : Environment} {t source : Text} {bindings : List (Text × Value)}

/-- Every name that has passed the check is bound or defined. -/
theorem knows_of_checkNames (checked : env.checkNames t source (bindings.map (·.1)) = .ok ()) :
    (env.scope bindings).Knows t := by
  obtain ⟨values, functions⟩ := checkNames_eq_ok.1 checked
  refine ⟨fun name found => ?_, functions⟩
  show ((bindings.lookup name).or (env.value? name)).isSome = true
  rw [Option.isSome_or, Bool.or_eq_true]
  refine (values name found).imp_left fun bound => ?_
  obtain ⟨entry, mem, rfl⟩ := List.mem_map.1 bound
  exact List.lookup_isSome_iff.2 ⟨entry, mem, beq_self_eq_true _⟩

/-- The checks before an evaluation are sound. A text that passes them is read without a fault at a square bracket, and
its evaluation never fails for a name that nothing defines. In a text without matrix literals the names that are looked
for are the ones in its postfix form: those that stand for values in the same order, and the same ones that are called. -/
theorem checks_sound (env : Environment) (bindings : List (Text × Value)) (t source : Text) :
    (Line.checkBrackets t source = .ok () → env.checkNames t source (bindings.map (·.1)) = .ok () →
      (∀ f, Token.tokenize t source = refuse f → f.blamesBracket (Text.squeeze t) = false) ∧
        ∀ e, (Postfix.parse t source >>= fun p => p.eval (env.scope bindings)) = .error e →
          e.isUndefinedName = false) ∧
      ('[' ∉ t → ∀ ts, Token.tokenize t source = .ok ts → ∃ p, Postfix.ofTokens ts source = .ok p ∧
        Token.identifiers p.tokens = Line.variableNames t ∧
          ∀ name, name ∈ Token.functionNames p.tokens ↔ name ∈ Line.functionNames t) := by
  constructor
  · intro brackets names
    constructor
    · intro f refused
      simpa [Failure.sparesBrackets] using Token.tokenize_sparesBrackets brackets _ refused
    · intro e failed
      simpa using (knows_of_checkNames names).eval e failed
  · intro noBracket ts read
    obtain ⟨e, derived⟩ := Expression.tokenize_derives read
    exact ⟨_, Expression.ofTokens_derives derived source, derived.names read noBracket⟩

/-- A text that passes the checks with `x` bound, though an entry divides by zero, and one with names in and out of a call. -/
theorem checks_sound_divided :
    let env : Environment := ⟨[(['a'], .rational 2)], [(['f'], ⟨['f'], ['t'], .rational 1⟩)]⟩
    let bindings : List (Text × Value) := [(['x'], .rational 3)]
    let t := "f(a)*[[x,a/0]]".toList
    let s := "y+f(2x)".toList
    (Line.checkBrackets t t = .ok () ∧ env.checkNames t t (bindings.map (·.1)) = .ok () ∧
      (∀ f, Token.tokenize t t = refuse f → f.blamesBracket (Text.squeeze t) = false) ∧
      ∀ e, (Postfix.parse t t >>= fun p => p.eval (env.scope bindings)) = .error e → e.isUndefinedName = false) ∧
      ∃ ts p, Token.tokenize s s = .ok ts ∧ Postfix.ofTokens ts s = .ok p ∧
        Token.identifiers p.tokens = [['y'], ['x']] ∧ ∀ name, name ∈ Token.functionNames p.tokens ↔ name ∈ [['f']] := by
  intro env bindings t s
  have brackets : Line.checkBrackets t t = .ok () := by decide +kernel
  have names : env.checkNames t t (bindings.map (·.1)) = .ok () := by decide +kernel
  have read : Token.tokenize s s = .ok [⟨.operand .identifier, ['y'], 0⟩, ⟨.operator .plus, ['+'], 1⟩,
      ⟨.function, ['f'], 2⟩, ⟨.opening, ['('], 3⟩, ⟨.operand .number, ['2'], 4⟩, ⟨.operator .times, ['*'], 5⟩,
      ⟨.operand .identifier, ['x'], 5⟩, ⟨.closing, [')'], 6⟩] := by decide +kernel
  have found : Line.variableNames s = [['y'], ['x']] ∧ Line.functionNames s = [['f']] := by decide +kernel
  obtain ⟨sound, -⟩ := checks_sound env bindings t t
  obtain ⟨-, inOrder⟩ := checks_sound env bindings s s
  obtain ⟨p, ordered, values, functions⟩ := inOrder (by decide) _ read
  rw [found.1] at values
  rw [found.2] at functions
  exact ⟨⟨brackets, names, sound brackets names⟩, _, p, read, ordered, values, functions⟩

end Environment

end Reckoner
