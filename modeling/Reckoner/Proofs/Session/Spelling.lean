import Reckoner.Proofs.Expression.MatrixLiteral
import Reckoner.Proofs.Line.Parts
import Reckoner.Proofs.Session.Definition
import Reckoner.Proofs.Token.Brackets
import Reckoner.Session.Computation
/-!
# How lines are spelled

Blanks do not matter for the value of an expression, and neither does the line that messages show. A request may have
marks at its end.
-/

namespace Reckoner

open CharClass

/-! ## Characters -/

namespace Text

variable {t u : Text} {c : Char}

theorem isBlank_of_isPlainLetter (letter : isPlainLetter c = true) : isBlank c = false :=
  isBlank_of_isWord (by simp [isWord, letter])

theorem squeeze_letters (letters : ∀ c ∈ t, isPlainLetter c = true) : squeeze t = t :=
  List.filter_eq_self.2 fun c mem => by simp [isBlank_of_isPlainLetter (letters c mem)]

theorem chop?_append (t : Text) (c : Char) : chop? c (t ++ [c]) = some t := by
  simp [chop?]

theorem chop?_eq_none (absent : c ∉ t) : chop? c t = none :=
  if_neg fun last => absent (List.mem_of_getLast? last)

end Text

/-! ## Expressions -/

namespace Environment

variable {env : Environment} {t t' source source' : Text} {bindings : List (Text × Value)} {v : Value}

/-- A value does not depend on blanks, nor on what messages show. -/
theorem outcome_eval_of_squeeze (h : (env.eval t source bindings).outcome = .ok v)
    (same : Text.squeeze t' = Text.squeeze t) : (env.eval t' source' bindings).outcome = .ok v := by
  obtain ⟨brackets, names, ts, e, read, derived, value⟩ := outcome_eval_eq_ok.1 h
  obtain ⟨w, run, simplified⟩ := Outcome.bind_eq_ok.1 value
  refine outcome_eval_eq_ok.2 ⟨?_, ?_, ts, e, Token.tokenize_of_squeeze read same, derived, ?_⟩
  · rwa [Line.checkBrackets_eq_ok, ← Line.bracketDepth?_squeeze, same, Line.bracketDepth?_squeeze,
      ← Line.checkBrackets_eq_ok]
  · have found : Line.names t' = Line.names t := by rw [Line.names, Line.names, same]
    rw [checkNames_eq_ok] at names ⊢
    rwa [Line.variableNames, Line.functionNames, found]
  · have refl : (env.scope bindings).Extends (env.scope bindings) := ⟨fun _ _ => id, fun _ _ => id⟩
    exact Outcome.bind_eq_ok.2 ⟨w, Expression.evalWith_extends refl (fun _ _ => id) run source', simplified⟩

/-- The value of an expression is in its simplest kind. -/
theorem simplify_of_outcome_eval (h : (env.eval t source bindings).outcome = .ok v) : v.simplify = v := by
  obtain ⟨-, -, _, _, -, -, value⟩ := outcome_eval_eq_ok.1 h
  obtain ⟨w, -, ⟨⟩⟩ := Outcome.bind_eq_ok.1 value
  exact w.simplify_simplify

end Environment

/-! ## Requests -/

/-- The line asks what the text is worth, with or without marks at its end. -/
def Line.Asks (line t : Text) : Prop :=
  Text.squeeze line = t ∨ Text.squeeze line = t ++ ['?'] ∨ Text.squeeze line = t ++ ['=', '?']

namespace Line.Asks

variable {line t : Text} (asks : Asks line t) (equals : '=' ∉ t) (mark : '?' ∉ t)
include asks equals mark

theorem classify : Line.classify line = .ok .computation := by
  unfold Line.classify
  rcases asks with whole | whole | whole
  · simp [whole, Text.chop?_eq_none mark, equals]
  · simp [whole, Text.chop?_append, equals]
  · have cut : sides (t ++ '=' :: []) line = .ok (t, []) := sides_eq_ok.2 ⟨rfl, equals, List.not_mem_nil⟩
    have split : t ++ ['=', '?'] = (t ++ ['=']) ++ ['?'] := by simp
    simp only [whole, split, Text.chop?_append]
    rw [if_pos (by simp), cut]
    rfl

theorem requested : Environment.requested line = .ok t := by
  unfold Environment.requested
  rcases asks with whole | whole | whole
  · simp [whole, Text.chop?_eq_none mark, equals]
  · simp [whole, Text.chop?_append, Text.chop?_eq_none equals]
  · have split : t ++ ['=', '?'] = (t ++ ['=']) ++ ['?'] := by simp
    simp only [whole, split, Text.chop?_append]
    rfl

end Line.Asks

end Reckoner
