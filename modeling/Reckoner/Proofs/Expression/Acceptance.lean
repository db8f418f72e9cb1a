import Reckoner.Proofs.Expression.Agreement
import Reckoner.Proofs.Value.Failures
/-!
# Accepted texts run

The postfix form of an accepted text finds its operands on the stack and leaves one thing there. What the text means may
still fail, but never because of the order of its tokens. The entries of matrix literals are texts of their own, and the
same holds of them.
-/

namespace Reckoner

open Outcome (FailsOnly)

/-! ## The height of the stack -/

/-- How many operands a token takes off the stack. A parenthesis has no place in postfix order. -/
def Token.Kind.arity? : Kind → Option Nat
  | .operand _ => some 0
  | .negate | .function => some 1
  | .operator _ => some 2
  | .opening | .closing => none

namespace Postfix

/-- The height of the stack after a token that finds its operands on it. -/
def height? (height : Nat) (t : Token) : Option Nat :=
  t.kind.arity?.bind fun taken => if taken ≤ height then some (height - taken + 1) else none

theorem arity_le_of_height?_eq_some {height height' : Nat} {t : Token} (h : height? height t = some height') :
    ∃ taken, t.kind.arity? = some taken ∧ taken ≤ height := by
  obtain ⟨taken, arity, h⟩ := Option.bind_eq_some_iff.1 h
  split at h
  next enough => exact ⟨taken, arity, enough⟩
  next => cases h

section Step

variable {α : Type} {meaning : Interpretation α} {source : Text}

/-- A token that can be run finds its operands. -/
theorem height?_of_step {stack stack' : List α} {t : Token} (h : step meaning source stack t = .ok stack') :
    height? stack.length t = some stack'.length := by
  obtain ⟨kind, value, position⟩ := t
  cases kind with
  | operand o =>
    obtain ⟨a, -, h⟩ := Outcome.bind_eq_ok.1 h
    cases h
    rfl
  | function | negate =>
    rcases stack with _ | ⟨a, stack⟩
    · cases h
    · obtain ⟨b, -, h⟩ := Outcome.bind_eq_ok.1 h
      cases h
      simp [height?, Token.Kind.arity?]
  | operator o =>
    rcases stack with _ | ⟨a, _ | ⟨b, stack⟩⟩
    · cases h
    · cases h
    · obtain ⟨c, -, h⟩ := Outcome.bind_eq_ok.1 h
      cases h
      simp [height?, Token.Kind.arity?]
  | opening | closing => rcases stack with _ | ⟨a, _ | ⟨b, stack⟩⟩ <;> cases h

/-- Tokens that can be run find their operands, one after the other. -/
theorem foldlM_height?_of_step {ts : List Token} {stack stack' : List α}
    (h : ts.foldlM (step meaning source) stack = .ok stack') :
    ts.foldlM height? stack.length = some stack'.length := by
  induction ts generalizing stack with
  | nil => cases h; rfl
  | cons t ts ih =>
    rw [List.foldlM_cons] at h
    obtain ⟨next, first, h⟩ := Outcome.bind_eq_ok.1 h
    rw [List.foldlM_cons, height?_of_step first]
    exact ih h

end Step

end Postfix

namespace Expression

open Postfix

/-- The postfix tokens of an expression find their operands and put one thing on the stack. -/
theorem foldlM_height?_postorder (e : Expression) (height : Nat) :
    e.postorder.foldlM height? height = some (height + 1) := by
  induction e generalizing height with
  | operand o m => simp [postorder, height?, Token.Kind.arity?]
  | negate m e ih => simp [postorder, ih, height?, Token.Kind.arity?]
  | binary o m left right ihl ihr => simp [postorder, ihl, ihr, height?, Token.Kind.arity?]
  | call m argument ih => simp [postorder, ih, height?, Token.Kind.arity?]
  | group e ih => exact ih height

/-- Wherever the run of an expression stands, the next token finds its operands. -/
theorem arity_le_of_postorder {α : Type} {meaning : Interpretation α} {source : Text} {e : Expression}
    {before after : List Token} {t : Token} {stack : List α} (split : e.postorder = before ++ t :: after)
    (run : before.foldlM (step meaning source) [] = .ok stack) :
    ∃ taken, t.kind.arity? = some taken ∧ taken ≤ stack.length := by
  -- All the tokens have a height, so the one that comes next has one after what has been run.
  have whole := foldlM_height?_postorder e 0
  have reached : before.foldlM height? 0 = some stack.length := foldlM_height?_of_step run
  simp only [split, List.foldlM_append, List.foldlM_cons, reached, Option.bind_eq_bind, Option.bind_some] at whole
  obtain ⟨height, next, -⟩ := Option.bind_eq_some_iff.1 whole
  exact arity_le_of_height?_eq_some next

/-- When an expression has been run, one thing is on the stack. -/
theorem length_of_postorder {α : Type} {meaning : Interpretation α} {source : Text} {e : Expression}
    {stack : List α} (run : e.postorder.foldlM (step meaning source) [] = .ok stack) : stack.length = 1 :=
  Option.some.inj ((foldlM_height?_of_step run).symm.trans (foldlM_height?_postorder e 0))

/-- An expression fails only as what its tokens mean does. -/
theorem evalWith_failsOnly {α : Type} {meaning : Interpretation α} {p : Failure → Bool} {e : Expression}
    (operand : ∀ o m, Mark.token m (.operand o) ∈ e.postorder → FailsOnly p (meaning.operand o m.value))
    (call : ∀ m, Mark.token m .function ∈ e.postorder → ∀ a, FailsOnly p (meaning.call m.value a))
    (negate : ∀ a, FailsOnly p (meaning.negate a)) (apply : ∀ o t a b, FailsOnly p (meaning.apply o t a b)) :
    FailsOnly p (e.evalWith meaning) := by
  induction e with
  | operand o m => exact operand o m (List.mem_singleton_self _)
  | negate m e ih =>
    refine .bind (ih ?_ ?_) fun a _ => negate a
    · exact fun o m mem => operand o m (by simp [postorder, mem])
    · exact fun m mem => call m (by simp [postorder, mem])
  | binary o m left right ihl ihr =>
    refine .bind (ihl ?_ ?_) fun a _ => .bind (ihr ?_ ?_) fun b _ => apply o m.value a b
    · exact fun o m mem => operand o m (by simp [postorder, mem])
    · exact fun m mem => call m (by simp [postorder, mem])
    · exact fun o m mem => operand o m (by simp [postorder, mem])
    · exact fun m mem => call m (by simp [postorder, mem])
  | call m argument ih =>
    refine .bind (ih ?_ ?_) fun a _ => call m (by simp [postorder]) a
    · exact fun o m mem => operand o m (by simp [postorder, mem])
    · exact fun m mem => call m (by simp [postorder, mem])
  | group e ih => exact ih operand call

end Expression

/-! ## Failures that are not about order -/

/-- Whether a failure says that tokens cannot be put in postfix order, or cannot be run in it. -/
def Failure.isDisorder : Failure → Bool
  | .fault (.mismatchedParentheses _) | .fault (.malformedPostfix _) => true
  | _ => false

/-- An outcome that does not fail for the order of tokens. -/
abbrev Outcome.Ordered {α : Type} (x : Outcome α) : Prop := x.FailsOnly (!·.isDisorder)

/-- Whether an input is refused for something else than the order of its tokens. -/
def Failure.isOrderly : Failure → Bool
  | .fault f => !(Failure.fault f).isDisorder
  | _ => false

/-- An outcome that fails only by such a refusal. -/
abbrev Outcome.Orderly {α : Type} (x : Outcome α) : Prop := x.FailsOnly Failure.isOrderly

/-- Whether an input is refused for how it is written, but not for the order of its tokens. -/
def Failure.isReading : Failure → Bool
  | .fault f => (f.family = .malformed || f.family = .badFormat) && !(Failure.fault f).isDisorder
  | _ => false

/-- An outcome that fails only by such a refusal. -/
abbrev Outcome.Reading {α : Type} (x : Outcome α) : Prop := x.FailsOnly Failure.isReading

open Outcome (Ordered Orderly Reading)

theorem Failure.isOrderly_of_isReading {e : Failure} (h : e.isReading = true) : e.isOrderly = true := by
  cases e with
  | fault f => exact (Bool.and_eq_true_iff.1 h).2
  | _ => cases h

theorem Failure.ordered_of_isReading {e : Failure} (h : e.isReading = true) : (!e.isDisorder) = true := by
  cases e with
  | fault f => exact (Bool.and_eq_true_iff.1 h).2
  | _ => cases h

theorem Outcome.Reading.orderly {α : Type} {x : Outcome α} (h : x.Reading) : x.Orderly :=
  h.mono fun _ => Failure.isOrderly_of_isReading

theorem Outcome.Orderly.ordered {α : Type} {x : Outcome α} (h : x.Orderly) : x.Ordered :=
  h.mono fun e he => by
    cases e with
    | fault f => exact he
    | _ => cases he

theorem Outcome.Refusing.orderly {α : Type} {x : Outcome α} (h : x.Refusing) : x.Orderly :=
  h.mono fun e he => by
    cases e with
    | fault f => cases f <;> first | rfl | cases he
    | _ => cases he

theorem Failure.ordered_of_isArithmetic {e : Failure} (h : e.isArithmetic = true) : (!e.isDisorder) = true := by
  cases e with
  | fault f => cases f <;> first | rfl | cases h
  | _ => rfl

namespace Token

theorem nesting_reading (source : Text) (position depth : Nat) (k : Kind) :
    Reading (nesting source position depth k) := by
  unfold nesting
  split
  · exact .ok _
  · split
    · exact .refuse rfl
    · exact .ok _
  · exact .ok _

theorem scan_reading (source : Text) (position depth : Nat) (last : Option Kind) (t : Text) :
    Reading (scan source position depth last t) := by
  match t with
  | [] =>
    rw [scan]
    split
    · exact .refuse rfl
    · split
      · exact .refuse rfl
      · exact .ok _
  | c :: rest =>
    rw [scan]
    split
    · split
      · exact .refuse rfl
      · exact .refuse rfl
    · refine .bind (nesting_reading _ _ _ _) fun depth' _ => ?_
      split
      · exact .refuse rfl
      · exact .bind (scan_reading _ _ _ _ _) fun following _ => .ok _
termination_by t.length
decreasing_by simp only [List.length_drop, List.length_cons]; omega

theorem tokenize_reading (expression source : Text) : Reading (tokenize expression source) := by
  simp only [tokenize]
  split
  · exact .refuse rfl
  · exact scan_reading _ _ _ _ _

end Token

namespace Scope

/-- A run fails only for its values, for its matrix literals and for names that the scope does not know. -/
theorem run_failsOnly {p : Failure → Bool} (arithmetic : ∀ e, e.isArithmetic = true → p e = true) {scope : Scope}
    {readMatrix : Text → Outcome Value} {e : Expression} {source : Text}
    (matrices : ∀ m, Mark.token m (.operand .matrix) ∈ e.postorder → FailsOnly p (readMatrix m.value))
    (values : ∀ m, Mark.token m (.operand .identifier) ∈ e.postorder →
      (scope.value? m.value).isSome = true ∨ p (.fault (.undefinedVariables source [m.value])) = true)
    (functions : ∀ m, Mark.token m .function ∈ e.postorder →
      (scope.functions.lookup m.value).isSome = true ∨ p (.fault (.undefinedFunctions source [m.value])) = true) :
    FailsOnly p (scope.run readMatrix ⟨e.postorder, source⟩) := by
  rw [run, e.run_postorder]
  refine .bind (Expression.evalWith_failsOnly (fun o m mem => ?_) (fun m mem v => ?_) (fun v => .ok _) fun o _ v w => ?_)
    fun _ _ => .ok _
  · cases o with
    | number => exact .map _ ((Rational.parse_refusing m.value).arithmetic.mono arithmetic)
    | imaginary => exact .map _ ((Gaussian.parse_refusing m.value).arithmetic.mono arithmetic)
    | matrix => exact matrices m mem
    | identifier =>
      simp only [meaning, operandValue]
      split
      · exact .ok _
      next unknown => exact .refuse ((values m mem).resolve_left (by simp [unknown]))
  · simp only [meaning, callValue]
    split
    · exact (NamedFunction.eval_refusing _ v).arithmetic.mono arithmetic
    next unknown => exact .refuse ((functions m mem).resolve_left (by simp [unknown]))
  · exact (o.apply_arithmetic v w).mono arithmetic

theorem run_ordered {readMatrix : Text → Outcome Value} (h : ∀ literal, Ordered (readMatrix literal)) (scope : Scope)
    (e : Expression) (source : Text) : Ordered (scope.run readMatrix ⟨e.postorder, source⟩) :=
  run_failsOnly (fun _ => Failure.ordered_of_isArithmetic) (fun m _ => h m.value) (fun _ _ => .inr rfl)
    fun _ _ => .inr rfl

end Scope

namespace Postfix

/-- What is read from a text is the postfix form of an expression. -/
theorem exists_of_parse_eq_ok {expression source : Text} {p : Postfix} (h : parse expression source = .ok p) :
    ∃ e : Expression, p = ⟨e.postorder, source⟩ := by
  obtain ⟨ts, read, h⟩ := Outcome.bind_eq_ok.1 h
  obtain ⟨e, derived⟩ := Expression.tokenize_derives read
  exact ⟨e, Except.ok.inj (h.symm.trans (Expression.ofTokens_derives derived source))⟩

theorem parse_reading (expression source : Text) : Reading (parse expression source) :=
  .bind (Token.tokenize_reading _ _) fun ts read => by
    obtain ⟨e, derived⟩ := Expression.tokenize_derives read
    rw [Expression.ofTokens_derives derived]
    exact .ok _

/-! ## Matrix literals -/

theorem entryValue_ordered (scope : Scope) (entry : Text) : Ordered (entryValue scope entry) :=
  .bind (parse_reading _ _).orderly.ordered fun p read => by
    obtain ⟨e, rfl⟩ := exists_of_parse_eq_ok read
    exact scope.run_ordered (fun _ => .refuse rfl) e entry

theorem rowTexts_reading (literal : Text) : Reading (Mat.rowTexts literal) := by
  simp only [Mat.rowTexts]
  split
  · exact .refuse rfl
  · split
    · refine .mapM (fun row => ?_) _
      split
      · exact .ok _
      · exact .refuse rfl
    · exact .ok _

section

variable {p : Failure → Bool} (reading : ∀ e, e.isReading = true → p e = true)
include reading

theorem readEntry_failsOnly {α : Type} {readCell : Text → Outcome α} {entry : Text} (h : FailsOnly p (readCell entry))
    (i j : Nat) : FailsOnly p (Mat.readEntry readCell i j entry) := by
  unfold Mat.readEntry
  split
  · exact .refuse (reading _ rfl)
  · split
    next f read =>
      split
      · exact .refuse (reading _ rfl)
      · exact .refuse (h _ read)
    · exact h

/-- The rows of a literal fail only as an entry does, or for the form of the literal. -/
theorem readRows_failsOnly {α : Type} {readCell : Text → Outcome α} {literal : Text}
    (h : ∀ entry, Line.Within entry literal → FailsOnly p (readCell entry)) :
    FailsOnly p (Mat.readRows readCell literal) := by
  refine .bind ((rowTexts_reading literal).mono reading) fun texts found => .bind (fun e failed => ?_) fun rows _ => ?_
  · obtain ⟨⟨row, i⟩, mem, failed⟩ := Lists.exists_of_mapM_eq_error failed
    obtain ⟨⟨entry, j⟩, mem', failed⟩ := Lists.exists_of_mapM_eq_error failed
    have part := Mat.within_of_entry found (List.fst_mem_of_mem_zipIdx mem) (List.fst_mem_of_mem_zipIdx mem')
    exact readEntry_failsOnly reading (h entry part) i j e failed
  · simp only
    split
    · exact .refuse (reading _ rfl)
    · exact .ok _

end

theorem matrixOf_refusing (rows : List (List Value)) : Outcome.Refusing (matrixOf rows) := by
  refine .bind (.mapM (fun row => .mapM (fun v => ?_) _) _) fun cells _ =>
    .bind (Mat.ofRows_refusing cells) fun _ _ => .ok _
  split
  · exact .ok _
  · exact .refuse rfl

theorem matrixValue_ordered (scope : Scope) (literal : Text) : Ordered (matrixValue scope literal) :=
  .bind (readRows_failsOnly (fun _ => Failure.ordered_of_isReading) fun entry _ => entryValue_ordered scope entry)
    fun rows _ => (matrixOf_refusing rows).orderly.ordered

theorem eval_ordered (scope : Scope) (e : Expression) (source : Text) :
    Ordered (Postfix.eval scope ⟨e.postorder, source⟩) := scope.run_ordered (matrixValue_ordered scope) e source

end Postfix

/-! ## Accepted texts -/

/-- Postfix tokens that can be run, whatever they mean: wherever the run stands, the next token finds its operands on
the stack, and one thing is there at the end. -/
structure Postfix.Runs (p : Postfix) : Prop where
  height : p.tokens.foldlM height? 0 = some 1
  operands : ∀ (α : Type) (meaning : Interpretation α) (before after : List Token) (t : Token) (stack : List α),
    p.tokens = before ++ t :: after → before.foldlM (step meaning p.source) [] = .ok stack →
      ∃ taken, t.kind.arity? = some taken ∧ taken ≤ stack.length
  result : ∀ (α : Type) (meaning : Interpretation α) (stack : List α),
    p.tokens.foldlM (step meaning p.source) [] = .ok stack → stack.length = 1

theorem Expression.postorder_runs (e : Expression) (source : Text) : Postfix.Runs ⟨e.postorder, source⟩ where
  height := e.foldlM_height?_postorder 0
  operands _ _ _ _ _ _ := arity_le_of_postorder
  result _ _ _ := length_of_postorder

/-- The tokens of an accepted text have a postfix form that can be run, and its evaluation fails in no scope for the
order of tokens. -/
theorem Token.tokenize_runs {expression source : Text} {ts : List Token} (h : tokenize expression source = .ok ts) :
    ∃ p, Postfix.ofTokens ts source = .ok p ∧ p.source = source ∧ p.Runs ∧
      ∀ (scope : Scope) (s : Text), p.eval scope ≠ refuse (.mismatchedParentheses s) ∧
        p.eval scope ≠ refuse (.malformedPostfix s) := by
  obtain ⟨e, derived⟩ := Expression.tokenize_derives h
  refine ⟨⟨e.postorder, source⟩, Expression.ofTokens_derives derived source, rfl, e.postorder_runs source, ?_⟩
  intro scope s
  have ordered := Postfix.eval_ordered scope e source
  exact ⟨fun failed => absurd (ordered _ failed) nofun, fun failed => absurd (ordered _ failed) nofun⟩

/-- The tokens of `2f(-x)^3`: a product with its sign left out, a called name and a negation. -/
def Token.productOfCall : List Token :=
  [⟨.operand .number, ['2'], 0⟩, ⟨.operator .times, ['*'], 1⟩, ⟨.function, ['f'], 1⟩, ⟨.opening, ['('], 2⟩,
    ⟨.negate, ['-'], 3⟩, ⟨.operand .identifier, ['x'], 4⟩, ⟨.closing, [')'], 5⟩, ⟨.operator .power, ['^'], 6⟩,
    ⟨.operand .number, ['3'], 7⟩]

theorem Token.productOfCall_runs :
    tokenize "2 f(-x)^3".toList "2 f(-x)^3".toList = .ok productOfCall ∧
      ∃ p, Postfix.ofTokens productOfCall "2 f(-x)^3".toList = .ok p ∧ p.source = "2 f(-x)^3".toList ∧ p.Runs ∧
        ∀ (scope : Scope) (s : Text), p.eval scope ≠ refuse (.mismatchedParentheses s) ∧
          p.eval scope ≠ refuse (.malformedPostfix s) := by
  have read : tokenize "2 f(-x)^3".toList "2 f(-x)^3".toList = .ok productOfCall := by decide +kernel
  exact ⟨read, tokenize_runs read⟩

end Reckoner
