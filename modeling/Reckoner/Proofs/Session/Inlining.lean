import Reckoner.Proofs.Expression.Agreement
import Reckoner.Proofs.Expression.Coefficients
import Reckoner.Proofs.Expression.Extension
import Reckoner.Proofs.Session.Definition
import Reckoner.Proofs.Value.Widening
/-!
# Names for parts of expressions

A name in an expression can be replaced by an expression in parentheses. It is worth the same afterwards as with the name
set to what that expression is worth, up to what simplification does: what is set is simplified, what stands in
parentheses is not.
-/

namespace Reckoner

open Expression

/-! ## Replacing a name -/

/-- The tokens in a token's place, when the name `n` is replaced by the tokens `us` in parentheses. -/
def Token.inlined (n : Text) (l r : Mark) (us : List Token) (t : Token) : List Token :=
  if t.kind = .operand .identifier ∧ t.value = n then l.token .opening :: us ++ [r.token .closing] else [t]

/-- Whatever is no name stays. -/
theorem Token.flatMap_inlined_cons {n : Text} {l r m : Mark} {us ts : List Token} (k : Kind)
    (other : k ≠ .operand .identifier) :
    (m.token k :: ts).flatMap (inlined n l r us) = m.token k :: ts.flatMap (inlined n l r us) := by
  rw [List.flatMap_cons, inlined, if_neg fun h => other h.1, List.singleton_append]

namespace Expression

/-- The expression with the name `n` replaced by an expression in parentheses. -/
def inline (n : Text) : Expression → Expression → Expression
  | operand o m, f => if o = .identifier ∧ m.value = n then group f else operand o m
  | negate m e, f => negate m (e.inline n f)
  | binary o m left right, f => binary o m (left.inline n f) (right.inline n f)
  | call m argument, f => call m (argument.inline n f)
  | group e, f => group (e.inline n f)

/-- Replacing the tokens of a name replaces the name. -/
theorem Derives.inline {level : Level} {e f : Expression} {ts us : List Token} (h : Derives level e ts)
    (hf : Derives .sum f us) (n : Text) (l r : Mark) :
    Derives level (e.inline n f) (ts.flatMap (Token.inlined n l r us)) := by
  induction h with
  | sum additive _ _ ihl ihr =>
    rw [List.flatMap_append, Token.flatMap_inlined_cons (.operator _) nofun]
    exact .sum additive ihl ihr
  | ofProduct _ ih => exact .ofProduct ih
  | product multiplicative _ _ ihl ihr =>
    rw [List.flatMap_append, Token.flatMap_inlined_cons (.operator _) nofun]
    exact .product multiplicative ihl ihr
  | ofUnary _ ih => exact .ofUnary ih
  | negate _ ih =>
    rw [Token.flatMap_inlined_cons .negate nofun]
    exact .negate ih
  | ofPower _ ih => exact .ofPower ih
  | power _ _ ihl ihr =>
    rw [List.flatMap_append, Token.flatMap_inlined_cons (.operator _) nofun]
    exact .power ihl ihr
  | ofAtom _ ih => exact .ofAtom ih
  | @operand o m =>
    rw [List.flatMap_singleton]
    unfold Expression.inline Token.inlined
    by_cases replaced : o = .identifier ∧ m.value = n
    · rw [if_pos replaced, if_pos ⟨congrArg Token.Kind.operand replaced.1, replaced.2⟩]
      exact .group hf
    · rw [if_neg replaced, if_neg fun h => replaced ⟨Token.Kind.operand.inj h.1, h.2⟩]
      exact .operand
  | group _ ih =>
    rw [List.flatMap_append, Token.flatMap_inlined_cons .opening nofun, Token.flatMap_inlined_cons .closing nofun]
    exact .group ih
  | call _ ih =>
    rw [List.flatMap_append, Token.flatMap_inlined_cons .function nofun, Token.flatMap_inlined_cons .opening nofun,
      Token.flatMap_inlined_cons .closing nofun]
    exact .call ih

end Expression

/-! ## Setting the name -/

/-- The second scope is the first one with the name `n` set to `v`. -/
structure Scope.Sets (n : Text) (v : Value) (scope scope' : Scope) : Prop where
  value : scope'.value? n = some v
  others : ∀ name, name ≠ n → scope'.value? name = scope.value? name
  functions : scope'.functions = scope.functions

/-- Every other operand stands for the same value. -/
theorem Scope.Sets.operand {wide : Prop} {scope scope' : Scope} {n t : Text} {v : Value} {o : Operand}
    (sets : Sets n v scope scope') (other : ¬(o = .identifier ∧ t = n))
    (literal : o = .matrix → n ∉ Line.variableNames t) (source source' : Text) :
    Outcome.Widens wide (scope'.operandValue (Postfix.matrixValue scope') source o t)
      (scope.operandValue (Postfix.matrixValue scope) source' o t) := by
  cases o with
  | number | imaginary => exact .refl _
  | matrix =>
    refine .of_eq (Postfix.matrixValue_agree ⟨fun name mem => sets.others name ?_, fun _ _ => ?_⟩)
    · rintro rfl
      exact literal rfl mem
    · rw [sets.functions]
  | identifier =>
    have same := sets.others t fun h => other ⟨rfl, h⟩
    simp only [Scope.operandValue, same]
    split
    · exact .refl _
    · exact .failure _ _

/-- The value of an expression with a name set to `v` is the value with the name replaced by an expression whose value is at
most wider than `v`, and at most wider itself. -/
theorem Expression.evalWith_inline {wide : Prop} {scope scope' : Scope} {n source : Text} {u v : Value}
    {e f : Expression} (sets : Scope.Sets n v scope scope')
    (worth : f.evalWith (scope.meaning (Postfix.matrixValue scope) source) = .ok u) (widens : v.Widens wide u)
    (literals : ∀ m : Mark, m.token (.operand .matrix) ∈ e.postorder → n ∉ Line.variableNames m.value)
    (source' source'' : Text) :
    Outcome.Widens wide (e.evalWith (scope'.meaning (Postfix.matrixValue scope') source'))
      ((e.inline n f).evalWith (scope.meaning (Postfix.matrixValue scope) source'')) := by
  induction e with
  | operand o m =>
    unfold inline
    split
    next replaced =>
      obtain ⟨rfl, rfl⟩ := replaced
      have named : (operand .identifier m).evalWith (scope'.meaning (Postfix.matrixValue scope') source') = .ok v := by
        simp only [evalWith, Scope.meaning, Scope.operandValue, sets.value]
      have replacing : (group f).evalWith (scope.meaning (Postfix.matrixValue scope) source'') = .ok u :=
        evalWith_extends ⟨fun _ _ => id, fun _ _ => id⟩ (fun _ _ => id) worth source''
      rw [named, replacing]
      exact .value widens
    next kept =>
      refine sets.operand kept ?_ source' source''
      rintro rfl
      exact literals m (List.mem_singleton_self _)
  | negate m e ih =>
    exact (ih fun m' mem => literals m' (by simp [postorder, mem])).bind fun h => .value h.neg
  | binary o m left right ihl ihr =>
    refine (ihl fun m' mem => literals m' (by simp [postorder, mem])).bind fun h => ?_
    exact (ihr fun m' mem => literals m' (by simp [postorder, mem])).bind fun h' => o.apply_widens h h'
  | call m argument ih =>
    refine (ih fun m' mem => literals m' (by simp [postorder, mem])).bind fun {v w} h => ?_
    show Outcome.Widens wide (scope'.callValue _ _ _) (scope.callValue _ _ _)
    simp only [Scope.callValue, sets.functions]
    split
    · exact NamedFunction.eval_widens _ h
    · exact .failure _ _
  | group e ih => exact ih literals

/-- The value of tokens in a scope before it is simplified. -/
def Scope.rawValue (scope : Scope) (ts : List Token) (source : Text) : Outcome Value := do
  (← Postfix.ofTokens ts source).run (scope.meaning (Postfix.matrixValue scope) source)

/-- The value of tokens in a scope. -/
def Scope.tokenValue (scope : Scope) (ts : List Token) (source : Text) : Outcome Value := do
  (← Postfix.ofTokens ts source).eval scope

namespace Scope

variable {scope : Scope} {e : Expression} {ts : List Token}

theorem rawValue_eq (h : Derives .sum e ts) (source : Text) :
    scope.rawValue ts source = e.evalWith (scope.meaning (Postfix.matrixValue scope) source) := by
  rw [rawValue, ofTokens_derives h source]
  exact run_postorder _ source e

theorem tokenValue_eq (h : Derives .sum e ts) (source : Text) : scope.tokenValue ts source = e.eval scope source := by
  rw [tokenValue, ofTokens_derives h source]
  exact eval_postorder source scope e

end Scope

/-- Simplification makes a wide value narrow. A constant polynomial is not wide, it is another value. -/
theorem Value.simplify_widens {u : Value} (varies : ∀ p, u = .polynomial p → p.isConstant = false) :
    u.simplify.Widens (∃ q, u = complex (.ofRat q)) u := by
  cases u with
  | matrix m => exact .refl _
  | polynomial p =>
    rw [simplify, if_neg (Bool.eq_false_iff.1 (varies p rfl))]
    exact .refl _
  | number x =>
    cases x with
    | rational q => exact .refl _
    | complex z =>
      show (number (Number.ofGaussian z)).Widens _ _
      unfold Number.ofGaussian
      split
      next real =>
        have narrow : Gaussian.ofRat z.re = z := Gaussian.ext rfl real.symm
        rw [← narrow]
        exact .wider ⟨_, rfl⟩ _
      · exact .refl _

/-! ## A variable instead of an expression -/

/-- Both outcomes are one value, or both are failures. -/
def Outcome.Alike {α : Type} : Outcome α → Outcome α → Prop
  | .ok a, .ok b => a = b
  | .error _, .error _ => True
  | _, _ => False

instance {α : Type} [DecidableEq α] : (x y : Outcome α) → Decidable (x.Alike y)
  | .ok a, .ok b => inferInstanceAs (Decidable (a = b))
  | .error _, .error _ => isTrue trivial
  | .ok _, .error _ => isFalse nofun
  | .error _, .ok _ => isFalse nofun

/-- Simplified, both outcomes are alike, unless a remainder was refused. -/
theorem Outcome.Widens.alike {wide : Prop} {x y : Outcome Value} (h : Widens wide x y) :
    Alike (x.map Value.simplify) (y.map Value.simplify) ∨ wide ∧ y.map Value.simplify = refuse .complexModulo := by
  cases h with
  | value h => exact .inl h.simplify_eq
  | failure d e => exact .inl trivial
  | remainder allowed => exact .inr ⟨allowed, rfl⟩

namespace Environment

variable {env : Environment} {us : List Token} {source : Text} {v : Value}

theorem sets_setVariable (env : Environment) (n : Text) (v : Value) :
    Scope.Sets n v (env.scope []) ((env.setVariable n v).scope []) where
  value := lookup_setEntry_self
  others _ other := lookup_setEntry_other other
  functions := rfl

theorem tokenValue_eq_ok (h : (env.scope []).tokenValue us source = .ok v) :
    ∃ u, (env.scope []).rawValue us source = .ok u ∧ u.simplify = v := by
  obtain ⟨form, ordered, h⟩ := Outcome.bind_eq_ok.1 h
  obtain ⟨u, run, h⟩ := Outcome.bind_eq_ok.1 h
  have same : form.source = source := by
    obtain ⟨ts, -, made⟩ := Outcome.bind_eq_ok.1 ordered
    cases made
    rfl
  exact ⟨u, Outcome.bind_eq_ok.2 ⟨form, ordered, same ▸ run⟩, Except.ok.inj h⟩

/-- Where no variable is a polynomial, no value is, simplified or not. -/
theorem rawValue_ne_polynomial (plain : ∀ name p, (name, .polynomial p) ∉ env.values) {e : Expression}
    (derived : Derives .sum e us) (p : Poly) : (env.scope []).rawValue us source ≠ .ok (.polynomial p) := by
  have coefficients : ∀ name w, (env.scope []).value? name = some w → ∃ c, w.toCoeff? = some c := by
    intro name w found
    cases w with
    | polynomial q =>
      obtain ⟨before, after, split, -⟩ := List.lookup_eq_some_iff.1 found
      have mem : (name, .polynomial q) ∈ before ++ (name, .polynomial q) :: after :=
        List.mem_append_right _ List.mem_cons_self
      rw [← split] at mem
      exact absurd mem (plain name q)
    | _ => exact ⟨_, rfl⟩
  intro value
  rw [Scope.rawValue_eq derived] at value
  obtain ⟨c, coeff⟩ := exists_toCoeff?_of_evalWith coefficients value
  cases coeff

/-- An expression with a variable set to what other tokens are worth has the value that it has with those tokens in
parentheses for the name, or both fail. What is set is simplified and what stands in parentheses is not, so two kinds of
values are apart: constant polynomials, of which there are none if no variable is a polynomial, and complex numbers that
are real, of which no remainder is taken. -/
theorem naming_agrees (env : Environment) (n : Text) (l r : Mark) {text text' source source' : Text}
    {ts us : List Token} {v : Value} (accepted : Token.tokenize text source = .ok ts)
    (accepted' : Token.tokenize text' source' = .ok us) (worth : (env.scope []).tokenValue us source' = .ok v)
    (varies : (∀ name p, (name, .polynomial p) ∉ env.values) ∨
      ∀ p, (env.scope []).rawValue us source' = .ok (.polynomial p) → p.isConstant = false)
    (literals : ∀ t ∈ ts, t.kind = .operand .matrix → n ∉ Line.variableNames t.value) (shown : Text) :
    Outcome.Alike (((env.setVariable n v).scope []).tokenValue ts source)
        ((env.scope []).tokenValue (ts.flatMap (Token.inlined n l r us)) shown) ∨
      (∃ q, (env.scope []).rawValue us source' = .ok (Value.complex (.ofRat q))) ∧
        (env.scope []).tokenValue (ts.flatMap (Token.inlined n l r us)) shown = refuse .complexModulo := by
  obtain ⟨e, he⟩ := tokenize_derives accepted
  obtain ⟨f, hf⟩ := tokenize_derives accepted'
  obtain ⟨u, raw, rfl⟩ := tokenValue_eq_ok worth
  have varies : ∀ p, u = .polynomial p → p.isConstant = false := by
    rintro p rfl
    exact varies.elim (fun plain => absurd raw (rawValue_ne_polynomial plain hf p)) fun varies => varies p raw
  have inner := raw
  rw [Scope.rawValue_eq hf] at inner
  have widens := evalWith_inline (sets_setVariable env n u.simplify) inner (Value.simplify_widens varies)
    (fun m mem => literals _ (mem_of_mem_postorder he mem) rfl) source shown
  rw [Scope.tokenValue_eq he, Scope.tokenValue_eq (he.inline hf n l r)]
  refine widens.alike.imp_right ?_
  rintro ⟨⟨q, rfl⟩, refused⟩
  exact ⟨⟨q, raw⟩, refused⟩

/-- The tokens of `-n^2`. -/
def negatedSquareTokens : List Token :=
  [⟨.negate, ['-'], 0⟩, ⟨.operand .identifier, ['n'], 1⟩, ⟨.operator .power, ['^'], 2⟩, ⟨.operand .number, ['2'], 3⟩]

/-- The tokens of `1-3`. -/
def oneMinusThreeTokens : List Token :=
  [⟨.operand .number, ['1'], 0⟩, ⟨.operator .minus, ['-'], 1⟩, ⟨.operand .number, ['3'], 2⟩]

/-- With `1-3` for `n` the square is one of the difference. -/
theorem naming_agrees_negatedSquare :
    let env : Environment := {}
    let named := ((env.setVariable ['n'] (Value.rational (-2))).scope []).tokenValue negatedSquareTokens "-n^2".toList
    let replaced := negatedSquareTokens.flatMap (Token.inlined ['n'] ⟨['('], 1⟩ ⟨[')'], 1⟩ oneMinusThreeTokens)
    named = .ok (Value.rational (-4)) ∧ named.Alike ((env.scope []).tokenValue replaced "-(1-3)^2".toList) := by
  have accepted : Token.tokenize "-n^2".toList "-n^2".toList = .ok negatedSquareTokens := by decide +kernel
  have accepted' : Token.tokenize "1-3".toList "1-3".toList = .ok oneMinusThreeTokens := by decide +kernel
  have agree := naming_agrees {} ['n'] ⟨['('], 1⟩ ⟨[')'], 1⟩ accepted accepted' (v := Value.rational (-2))
    (by decide +kernel) (.inl nofun) (by decide +kernel) "-(1-3)^2".toList
  exact ⟨by decide +kernel, agree.resolve_right fun refused => absurd refused.2 (by decide +kernel)⟩

/-- The name can be replaced without any exception: whatever the second text is worth, the first one is alike with the name
set and with the tokens in its place. -/
def Replaceable (env : Environment) (n text text' : Text) : Prop :=
  ∀ (l r : Mark) (ts us : List Token) (v : Value), Token.tokenize text text = .ok ts →
    Token.tokenize text' text' = .ok us → (env.scope []).tokenValue us text' = .ok v →
      Outcome.Alike (((env.setVariable n v).scope []).tokenValue ts text)
        ((env.scope []).tokenValue (ts.flatMap (Token.inlined n l r us)) text)

/-- An environment with the polynomial `x` in a variable. -/
def withPolynomial : Environment := { values := [(['p'], .polynomial (.identity ['x']))] }

/-- The exceptions are needed. There is a remainder of `n` but none of `(i*i)`. With a polynomial `p`, `[[1]]+(p-p)` has a
value while `n` is a number that cannot be added, and `[[1]]*(p-p)` has forgotten the shape. In `[[n]]*n` one name stays. -/
theorem not_replaceable : ¬Replaceable {} ['n'] "n%2".toList "i*i".toList ∧
    ¬Replaceable withPolynomial ['n'] "[[1]]+n".toList "p-p".toList ∧
    ¬Replaceable withPolynomial ['n'] "[[1]]*n".toList "p-p".toList ∧
    ¬Replaceable {} ['n'] "[[n]]*n".toList "1".toList := by
  refine ⟨fun h => ?_, fun h => ?_, fun h => ?_, fun h => ?_⟩
  · have same := h ⟨['('], 0⟩ ⟨[')'], 0⟩
      [⟨.operand .identifier, ['n'], 0⟩, ⟨.operator .modulo, ['%'], 1⟩, ⟨.operand .number, ['2'], 2⟩]
      [⟨.operand .imaginary, ['i'], 0⟩, ⟨.operator .times, ['*'], 1⟩, ⟨.operand .imaginary, ['i'], 2⟩]
      (Value.rational (-1)) (by decide +kernel) (by decide +kernel) (by decide +kernel)
    exact absurd same (by decide +kernel)
  · have same := h ⟨['('], 0⟩ ⟨[')'], 0⟩
      [⟨.operand .matrix, "[[1]]".toList, 0⟩, ⟨.operator .plus, ['+'], 5⟩, ⟨.operand .identifier, ['n'], 6⟩]
      [⟨.operand .identifier, ['p'], 0⟩, ⟨.operator .minus, ['-'], 1⟩, ⟨.operand .identifier, ['p'], 2⟩]
      (Value.rational 0) (by decide +kernel) (by decide +kernel) (by decide +kernel)
    exact absurd same (by decide +kernel)
  · have same := h ⟨['('], 0⟩ ⟨[')'], 0⟩
      [⟨.operand .matrix, "[[1]]".toList, 0⟩, ⟨.operator .times, ['*'], 5⟩, ⟨.operand .identifier, ['n'], 6⟩]
      [⟨.operand .identifier, ['p'], 0⟩, ⟨.operator .minus, ['-'], 1⟩, ⟨.operand .identifier, ['p'], 2⟩]
      (Value.rational 0) (by decide +kernel) (by decide +kernel) (by decide +kernel)
    exact absurd same (by decide +kernel)
  · have same := h ⟨['('], 0⟩ ⟨[')'], 0⟩
      [⟨.operand .matrix, "[[n]]".toList, 0⟩, ⟨.operator .times, ['*'], 5⟩, ⟨.operand .identifier, ['n'], 6⟩]
      [⟨.operand .number, ['1'], 0⟩] (Value.rational 1) (by decide +kernel) (by decide +kernel) (by decide +kernel)
    exact absurd same (by decide +kernel)

end Environment

end Reckoner
