import Reckoner.Proofs.Session.Reachable
import Reckoner.Proofs.Session.Spelling
import Reckoner.Session.Basic
/-!
# Reading back what was assigned

A name that may be given to something is one token, and the one name that is found in it, so that what was assigned to it
is read back.

Main statement: what an assignment shows is what a request for the name shows afterwards, and the value of the name is the
value that the expression had before; a function that is asked for by its parameter shows its body behind its head.
-/

namespace Reckoner

open CharClass

/-! ## Names -/

namespace Line.IsName

variable {name parameter : Text} (h : IsName name)
include h

theorem squeeze : Text.squeeze name = name := Text.squeeze_letters h.letters

theorem not_mem {c : Char} (other : isPlainLetter c = false) : c ∉ name := by
  intro mem
  cases other.symm.trans (h.letters c mem)

theorem header? : Line.header? name = none := by
  rw [Option.eq_none_iff_forall_ne_some]
  rintro ⟨called, argument⟩ header
  obtain ⟨tail, split, -⟩ := header?_eq_some header
  exact h.not_mem (c := '(') (by decide) (split ▸ by simp)

/-- The name is found in itself, and nothing else is. -/
theorem names : Line.names name = [(name, false)] := by
  obtain ⟨c, rest, rfl⟩ := List.exists_cons_of_ne_nil h.1
  obtain ⟨letter, later⟩ := List.forall_mem_cons.1 h.letters
  have ends : BeginsRun [] := nofun
  obtain ⟨taken, left⟩ := takeWhile_letters later ends
  rw [List.append_nil] at taken left
  have runs : letterRuns (c :: rest) = [(c :: rest, [])] := by
    rw [letterRuns, if_pos letter, taken, left, letterRuns]
  rw [Line.names, h.squeeze, runs]
  simp [h.notUnit]

theorem variableNames : Line.variableNames name = [name] := by
  simp [Line.variableNames, h.names, Text.distinct]

theorem functionNames : Line.functionNames name = [] := by
  simp [Line.functionNames, h.names, Text.distinct]

/-- The name is read as one token. -/
theorem tokenize (source : Text) : Token.tokenize name source = .ok [⟨.operand .identifier, name, 0⟩] := by
  have read : Token.scan source 0 0 none (name ++ []) = (⟨.operand .identifier, name, 0⟩ :: ·) <$>
      Token.scan source (0 + name.length) 0 (some (.operand .identifier)) [] := Token.scan_name h nofun nofun rfl
  rw [List.append_nil] at read
  rw [Token.tokenize, h.squeeze, if_neg (by simpa using h.1), read, Token.scan]
  rfl

/-- A call of a name with a name. -/
theorem header?_call (given : IsName parameter) :
    Line.header? (name ++ '(' :: (parameter ++ [')'])) = some (name, parameter) := by
  have opening : BeginsRun ('(' :: (parameter ++ [')'])) := by simp [BeginsRun]; decide
  have closing : BeginsRun [')'] := by simp [BeginsRun]; decide
  obtain ⟨taken, left⟩ := takeWhile_letters h.letters opening
  obtain ⟨taken', left'⟩ := takeWhile_letters given.letters closing
  simp only [Line.header?, taken, left, taken', left']
  simp [h.1, given.1]

end Line.IsName

namespace Environment

variable {env : Environment} {name parameter source request t : Text} {places : Nat} {v : Value}
  {f : NamedFunction}

/-! ## Answers -/

/-- A variable is worth its value. -/
theorem outcome_eval_name (named : Line.IsName name) (found : env.value? name = some v) (simplest : v.simplify = v) :
    (env.eval name source []).outcome = .ok v := by
  have noBracket : ∀ c ∈ name, c ≠ '[' ∧ c ≠ ']' := fun c mem =>
    ⟨fun same => named.not_mem (by decide) (same ▸ mem), fun same => named.not_mem (by decide) (same ▸ mem)⟩
  have value : (env.scope []).value? name = some v := found
  refine outcome_eval_eq_ok.2 ⟨(Line.Balanced.of_forall noBracket).checkBrackets source, ?_, _,
    .operand .identifier ⟨name, 0⟩, named.tokenize source, .ofProduct (.ofUnary (.ofPower (.ofAtom .operand))), ?_⟩
  · rw [checkNames_eq_ok, named.variableNames, named.functionNames]
    simp [found]
  · refine Outcome.bind_eq_ok.2 ⟨v, ?_, congrArg Except.ok simplest⟩
    simp only [Expression.evalWith, Scope.meaning, Scope.operandValue, value]

/-- A request is answered with the function that its text shows, or else with the value of the text. -/
theorem outcome_answer (asks : Line.Asks request t) (equals : '=' ∉ t) (mark : '?' ∉ t) (nonempty : t ≠ []) :
    (env.answer places request).outcome =
      match env.shownFunction? t with
      | some f => .ok (.function f)
      | none => (env.eval t request []).outcome.map .value := by
  have asked : t.isEmpty = false := by simpa using nonempty
  simp only [answer, Traced.outcome_bind, Traced.outcome_monadLift, asks.classify equals mark]
  show (monadLift (requested request) >>= _ : Traced Answer).outcome = _
  simp only [Traced.outcome_bind, Traced.outcome_monadLift, asks.requested equals mark]
  show (if t.isEmpty = true then _ else _ : Traced Answer).outcome = _
  rw [asked]
  cases env.shownFunction? t with
  | some f => rfl
  | none =>
    simp only [Bool.false_eq_true, if_false, Traced.outcome_bind, Traced.outcome_record, Traced.outcome_pure]
    cases (env.eval t request []).outcome <;> rfl

/-- A variable that was set is what a request for it gives. -/
theorem answer_variable (named : Line.IsName name) (simplest : v.simplify = v) (asks : Line.Asks request name) :
    ((env.setVariable name v).answer places request).outcome = .ok (.value v) := by
  have found : (env.setVariable name v).value? name = some v := lookup_setEntry_self
  have plain : (env.setVariable name v).shownFunction? name = none := by
    simp [shownFunction?, ownCall?, named.header?]
  rw [outcome_answer asks (named.not_mem (by decide)) (named.not_mem (by decide)) named.1, plain,
    outcome_eval_name named found simplest]
  rfl

/-- A function that was set is what a request for it with its own parameter gives, unless the parameter has a value. -/
theorem answer_function (named : Line.IsName f.name) (given : Line.IsName f.parameter)
    (free : env.value? f.parameter = none) (asks : Line.Asks request (f.name ++ '(' :: (f.parameter ++ [')']))) :
    ((env.setFunction f).answer places request).outcome = .ok (.function f) := by
  have found : (env.setFunction f).function? f.name = some f := lookup_setEntry_self
  have unset : (env.setFunction f).value? f.parameter = none := free
  have shown : (env.setFunction f).shownFunction? (f.name ++ '(' :: (f.parameter ++ [')'])) = some f := by
    simp [shownFunction?, ownCall?, named.header?_call given, found, unset]
  have absent : ∀ c, isPlainLetter c = false → c ≠ '(' → c ≠ ')' → c ∉ f.name ++ '(' :: (f.parameter ++ [')']) := by
    intro c other opening closing
    simp [named.not_mem other, given.not_mem other, opening, closing]
  rw [outcome_answer asks (absent '=' (by decide) (by decide) (by decide))
    (absent '?' (by decide) (by decide) (by decide)) (by simp), shown]

/-! ## Definitions -/

variable {line expression left right u : Text} {d : Definition}

/-- Where a line can be cut at an equals sign, it is cut there. -/
theorem sides_eq (cut : Line.sides (Text.squeeze line) line = .ok (left, right))
    (spelled : Text.squeeze line = t ++ '=' :: u) : left = t ∧ right = u := by
  obtain ⟨split, once, once'⟩ := Line.sides_eq_ok.1 cut
  obtain ⟨first, -, second⟩ := (List.append_cons_inj_of_notMem once once').1 (split.symm.trans spelled)
  exact ⟨first, second⟩

/-- A line that gives an expression to a name sets the name to the value of the expression. -/
theorem variable_of_assign (accepted : (env.assign line).outcome = .ok d) (named : Line.IsName name)
    (spelled : Text.squeeze line = name ++ '=' :: Text.squeeze expression) :
    ∃ v, d = .variable name v ∧ v.simplify = v ∧ ∀ source, (env.eval expression source []).outcome = .ok v := by
  cases defines_of_assign accepted with
  | ofVariable cut _ _ value =>
    obtain ⟨rfl, rfl⟩ := sides_eq cut spelled
    exact ⟨_, rfl, simplify_of_outcome_eval value, fun _ => outcome_eval_of_squeeze value (Text.squeeze_squeeze _).symm⟩
  | ofFunction cut header =>
    obtain ⟨rfl, -⟩ := sides_eq cut spelled
    cases named.header?.symm.trans header

/-- A line that gives an expression to a call sets the function to the value of the expression with the parameter unknown. -/
theorem function_of_assign (accepted : (env.assign line).outcome = .ok d) (named : Line.IsName name)
    (given : Line.IsName parameter)
    (spelled : Text.squeeze line = name ++ '(' :: (parameter ++ [')']) ++ '=' :: Text.squeeze expression) :
    ∃ v, d = .function ⟨name, parameter, v⟩ ∧
      ∀ source, (env.eval expression source (unknown parameter)).outcome = .ok v := by
  have call := named.header?_call given
  cases defines_of_assign accepted with
  | ofVariable cut noHeader =>
    obtain ⟨rfl, -⟩ := sides_eq cut spelled
    cases noHeader.symm.trans call
  | ofFunction cut header _ _ value made =>
    obtain ⟨rfl, rfl⟩ := sides_eq cut spelled
    cases call.symm.trans header
    cases NamedFunction.make_eq_ok made
    rw [simplify_of_outcome_eval value]
    exact ⟨_, rfl, fun _ => outcome_eval_of_squeeze value (Text.squeeze_squeeze _).symm⟩

end Environment

/-! ## Sessions -/

namespace Session

variable {s : Session} {line request shown : Text}

theorem assign_eq_ok (accepted : (s.assign line).2.outcome = .ok shown) :
    ∃ d, (s.environment.assign line).outcome = .ok d ∧ s.display.showDefinition d = .ok shown ∧
      (s.assign line).1 = { s with environment := s.environment.define d } := by
  obtain ⟨d, defined, shows⟩ := Traced.outcome_bind_eq_ok.1 accepted
  refine ⟨d, defined, shows, ?_⟩
  simp only [assign, afterDefinition, defined]

theorem outcome_compute (env : Environment) : (({ s with environment := env }).compute request).outcome =
    (env.answer s.sharedSettings.rootPlaces request).outcome >>= s.display.showAnswer := by
  simp only [compute, answer, Environment.compute, Traced.outcome_bind, Traced.outcome_reporting]
  rfl

theorem variable_recalled {name expression : Text} (named : Line.IsName name)
    (spelled : Text.squeeze line = name ++ '=' :: Text.squeeze expression)
    (accepted : (s.assign line).2.outcome = .ok shown) :
    (∀ request, Line.Asks request name → ((s.assign line).1.compute request).outcome = .ok shown) ∧
      ∃ v, (∀ source, (s.environment.eval expression source []).outcome = .ok v) ∧
        (s.assign line).1.environment.value? name = some v := by
  obtain ⟨d, defined, shows, after⟩ := assign_eq_ok accepted
  obtain ⟨v, rfl, simplest, value⟩ := Environment.variable_of_assign defined named spelled
  rw [after]
  refine ⟨fun request asks => ?_, v, value, Environment.lookup_setEntry_self⟩
  rw [outcome_compute, Environment.define, Environment.answer_variable named simplest asks]
  exact shows

theorem function_recalled {name parameter expression : Text} (named : Line.IsName name) (given : Line.IsName parameter)
    (free : s.environment.value? parameter = none)
    (spelled : Text.squeeze line = name ++ '(' :: (parameter ++ [')']) ++ '=' :: Text.squeeze expression)
    (accepted : (s.assign line).2.outcome = .ok shown) :
    (∀ request, Line.Asks request (name ++ '(' :: (parameter ++ [')'])) →
      ((s.assign line).1.compute request).outcome = .ok (name ++ '(' :: parameter ++ [')', ' ', '=', ' '] ++ shown)) ∧
      ∃ v, (∀ source, (s.environment.eval expression source (Environment.unknown parameter)).outcome = .ok v) ∧
        (s.assign line).1.environment.function? name = some ⟨name, parameter, v⟩ := by
  obtain ⟨d, defined, shows, after⟩ := assign_eq_ok accepted
  obtain ⟨v, rfl, value⟩ := Environment.function_of_assign defined named given spelled
  obtain ⟨writable, rfl⟩ := Outcome.written_eq_ok.1 shows
  rw [after]
  refine ⟨fun request asks => ?_, v, value, Environment.lookup_setEntry_self⟩
  rw [outcome_compute, Environment.define, Environment.answer_function named given free asks]
  exact Outcome.written_of writable

/-- What was assigned is read back, in any session, under any display and with any blanks in the lines. -/
theorem assigned_recalled (s : Session) :
    (∀ name expression line shown, Line.IsName name →
      Text.squeeze line = name ++ '=' :: Text.squeeze expression → (s.assign line).2.outcome = .ok shown →
        (∀ request, Line.Asks request name → ((s.assign line).1.compute request).outcome = .ok shown) ∧
          ∃ v, (∀ source, (s.environment.eval expression source []).outcome = .ok v) ∧
            (s.assign line).1.environment.value? name = some v) ∧
      (∀ name parameter expression line shown, Line.IsName name → Line.IsName parameter →
        s.environment.value? parameter = none →
          Text.squeeze line = name ++ '(' :: (parameter ++ [')']) ++ '=' :: Text.squeeze expression →
            (s.assign line).2.outcome = .ok shown →
              (∀ request, Line.Asks request (name ++ '(' :: (parameter ++ [')'])) →
                ((s.assign line).1.compute request).outcome =
                  .ok (name ++ '(' :: parameter ++ [')', ' ', '=', ' '] ++ shown)) ∧
                ∃ v, (∀ source, (s.environment.eval expression source (Environment.unknown parameter)).outcome = .ok v) ∧
                  (s.assign line).1.environment.function? name = some ⟨name, parameter, v⟩) ∧
        ∀ name source, Line.checkName name source = .ok () →
          (∀ line, Token.tokenize name line = .ok [⟨.operand .identifier, name, 0⟩]) ∧
            Line.variableNames name = [name] ∧ Line.functionNames name = [] := by
  refine ⟨fun name expression line shown => variable_recalled,
    fun name parameter expression line shown => function_recalled, fun name source checked => ?_⟩
  have named := Line.isName_of_checkName checked
  exact ⟨named.tokenize, named.variableNames, named.functionNames⟩

/-- A session in which a variable is two. -/
def withTwo : Session := ((start {} {}).assign "a = 2".toList).1

/-- The blank in the name goes, and the value is shown with decimals. -/
theorem assigned_recalled_withTwo :
    (Line.IsName "Ab".toList ∧
      Text.squeeze "A b = 3/4 - a*2.5i".toList = "Ab".toList ++ '=' :: Text.squeeze "3/4 - a*2.5i".toList ∧
        (withTwo.assign "A b = 3/4 - a*2.5i".toList).2.outcome = .ok "0.75-5i".toList ∧
          (∀ request, Line.Asks request "Ab".toList →
            ((withTwo.assign "A b = 3/4 - a*2.5i".toList).1.compute request).outcome = .ok "0.75-5i".toList) ∧
            ∃ v, (∀ source, (withTwo.environment.eval "3/4 - a*2.5i".toList source []).outcome = .ok v) ∧
              (withTwo.assign "A b = 3/4 - a*2.5i".toList).1.environment.value? "Ab".toList = some v) ∧
      (Line.IsName ['f'] ∧ Line.IsName ['y'] ∧ withTwo.environment.value? ['y'] = none ∧
        Text.squeeze "f(y) = a*y^2 - y/3".toList =
          ['f'] ++ '(' :: (['y'] ++ [')']) ++ '=' :: Text.squeeze "a*y^2 - y/3".toList ∧
          (withTwo.assign "f(y) = a*y^2 - y/3".toList).2.outcome = .ok "2 * y^2 - 1/3 * y".toList ∧
            ((withTwo.assign "f(y) = a*y^2 - y/3".toList).1.compute "f ( y ) = ?".toList).outcome =
              .ok "f(y) = 2 * y^2 - 1/3 * y".toList) ∧
        Line.checkName "Ix".toList [] = .ok () ∧ Line.variableNames "Ix".toList = ["Ix".toList] := by
  have named : Line.IsName "Ab".toList := by decide
  have spelled : Text.squeeze "A b = 3/4 - a*2.5i".toList = "Ab".toList ++ '=' :: Text.squeeze "3/4 - a*2.5i".toList := by
    decide +kernel
  have accepted : (withTwo.assign "A b = 3/4 - a*2.5i".toList).2.outcome = .ok "0.75-5i".toList := by decide +kernel
  have unset : withTwo.environment.value? ['y'] = none := by decide +kernel
  have spelled' : Text.squeeze "f(y) = a*y^2 - y/3".toList =
      ['f'] ++ '(' :: (['y'] ++ [')']) ++ '=' :: Text.squeeze "a*y^2 - y/3".toList := by decide +kernel
  have accepted' : (withTwo.assign "f(y) = a*y^2 - y/3".toList).2.outcome = .ok "2 * y^2 - 1/3 * y".toList := by
    decide +kernel
  have asks : Line.Asks "f ( y ) = ?".toList (['f'] ++ '(' :: (['y'] ++ [')'])) := .inr (.inr (by decide +kernel))
  have checked : Line.checkName "Ix".toList [] = .ok () := by decide +kernel
  have recalled := assigned_recalled withTwo
  exact ⟨⟨named, spelled, accepted, recalled.1 _ _ _ _ named spelled accepted⟩,
    ⟨by decide, by decide, unset, spelled', accepted',
      (recalled.2.1 _ _ _ _ _ (by decide) (by decide) unset spelled' accepted').1 _ asks⟩,
    checked, (recalled.2.2 _ _ checked).2.1⟩

end Session

end Reckoner
