import Reckoner.Proofs.Expression.Grammar
import Reckoner.Proofs.Lists
/-!
# Conversion to postfix order

The tokens of a grammatical expression come out in postfix order, and running them gives what the tree gives. The
invariant of the conversion is `order_derives`: after the tokens of a phrase some of its postfix tokens are out and the
others wait on top of the stack, each of them so tightly binding that whatever ends the phrase takes it off.
-/

namespace Reckoner

namespace Token.Kind

/-! ## Which operators are taken off -/

theorem bindsBefore_additive (k : Kind) {o : Operator} (h : o.additive = true) :
    k.bindsBefore o = k.bindsBefore .plus := by
  cases o <;> first | rfl | cases h

theorem bindsBefore_multiplicative (k : Kind) {o : Operator} (h : o.multiplicative = true) :
    k.bindsBefore o = k.bindsBefore .times := by
  cases o <;> first | rfl | cases h

/-- What a product takes off, a sum takes off. -/
theorem bindsBefore_plus_of_times {k : Kind} (h : k.bindsBefore .times = true) : k.bindsBefore .plus = true := by
  cases k with
  | operator o => cases o <;> rfl
  | negate => rfl
  | _ => cases h

/-- A power takes nothing off. -/
theorem bindsBefore_power (k : Kind) : k.bindsBefore .power = false := by
  cases k with
  | operator o => cases o <;> rfl
  | _ => rfl

/-- What an operator takes off is an operator or a negation. -/
theorem ne_of_bindsBefore {k : Kind} {o : Operator} (h : k.bindsBefore o = true) :
    k ≠ .opening ∧ k ≠ .function := by
  constructor <;> rintro rfl <;> cases h

end Token.Kind

namespace Postfix

/-! ## One token -/

variable {source : Text} {stack rest : List Token}

theorem order_operand (o : Operand) (m : Mark) :
    order source stack (m.token (.operand o) :: rest) = (m.token (.operand o) :: ·) <$> order source stack rest := by
  rw [order]; rfl

theorem order_push {t : Token} (h : t.kind = .function ∨ t.kind = .opening ∨ t.kind = .negate) :
    order source stack (t :: rest) = order source (t :: stack) rest := by
  rw [order]
  rcases h with h | h | h <;> rw [h]

theorem order_operator (o : Operator) (m : Mark) {taken left : List Token}
    (h : stack.span (·.kind.bindsBefore o) = (taken, left)) :
    order source stack (m.token (.operator o) :: rest) =
      (taken ++ ·) <$> order source (m.token (.operator o) :: left) rest := by
  rw [order]
  simp only [Mark.token_kind, h]
  rfl

theorem order_closing (m : Mark) {taken left : List Token} {t : Token}
    (h : stack.span (·.kind != .opening) = (taken, t :: left)) :
    order source stack (m.token .closing :: rest) =
      (fun out => taken ++ (order.call left).1 ++ out) <$> order source (order.call left).2 rest := by
  rw [order]
  simp only [Mark.token_kind, h]
  rfl

/-- Without a function on top nothing is called. -/
theorem call_of_not_function {stack : List Token} (h : ∀ t ∈ stack.head?, t.kind ≠ .function) :
    order.call stack = ([], stack) := by
  cases stack with
  | nil => rfl
  | cons t stack => exact if_neg (h t rfl)

end Postfix

namespace Expression

open Postfix

/-! ## The stack below and above a phrase -/

/-- The operator of a phrase that takes most off the stack. -/
def Level.loosest : Level → Operator
  | .sum => .plus
  | .product => .times
  | _ => .power

/-- A stack that no token of a phrase takes anything off. -/
def Admits (l : Level) (stack : List Token) : Prop :=
  ∀ t ∈ stack.head?, t.kind ≠ .function ∧ t.kind.bindsBefore l.loosest = false

/-- What may wait after a phrase: whatever can follow it takes this off. -/
def Waiting : Level → List Token → Prop
  | .sum, ts => ∀ t ∈ ts, t.kind.bindsBefore .plus = true
  | .atom, ts => ts = []
  | _, ts => ∀ t ∈ ts, t.kind.bindsBefore .times = true

theorem Admits.of_tight {l : Level} {stack : List Token} (h : l.loosest = .power)
    (top : ∀ t ∈ stack.head?, t.kind ≠ .function) : Admits l stack := fun t ht =>
  ⟨top t ht, h ▸ t.kind.bindsBefore_power⟩

theorem Admits.not_function {l : Level} {stack : List Token} (h : Admits l stack) :
    ∀ t ∈ stack.head?, t.kind ≠ .function := fun t ht => (h t ht).1

theorem Admits.product {stack : List Token} (h : Admits .sum stack) : Admits .product stack := fun t ht =>
  ⟨(h t ht).1, Bool.eq_false_iff.2 fun binds =>
    Bool.eq_false_iff.1 (h t ht).2 (Token.Kind.bindsBefore_plus_of_times binds)⟩

theorem Admits.push {l : Level} {t : Token} (stack : List Token) (h : t.kind ≠ .function)
    (loose : t.kind.bindsBefore l.loosest = false) : Admits l (t :: stack) := by
  intro s hs
  cases hs
  exact ⟨h, loose⟩

theorem Waiting.sum {ts : List Token} (h : Waiting .product ts) : Waiting .sum ts := fun t ht =>
  Token.Kind.bindsBefore_plus_of_times (h t ht)

theorem Waiting.snoc_sum {t : Token} {ts : List Token} (h : Waiting .sum ts) (last : t.kind.bindsBefore .plus = true) :
    Waiting .sum (ts ++ [t]) :=
  List.forall_mem_append.2 ⟨h, List.forall_mem_singleton.2 last⟩

theorem Waiting.snoc_product {t : Token} {ts : List Token} (h : Waiting .product ts)
    (last : t.kind.bindsBefore .times = true) : Waiting .product (ts ++ [t]) :=
  List.forall_mem_append.2 ⟨h, List.forall_mem_singleton.2 last⟩

/-! ## A phrase -/

section Phrase

variable {source : Text} {stack ts us : List Token}

/-- Two phrases with an operator between them: the operator takes off what waits for the left one, and waits itself
below what waits for the right one. -/
theorem order_binary {o : Operator} {m : Mark} {out waiting out' waiting' : List Token}
    (off : ∀ t ∈ waiting, t.kind.bindsBefore o = true) (top : ∀ t ∈ stack.head?, t.kind.bindsBefore o = false)
    (left : ∀ rest, order source stack (ts ++ rest) = (out ++ ·) <$> order source (waiting ++ stack) rest)
    (right : ∀ rest, order source (m.token (.operator o) :: stack) (us ++ rest) =
      (out' ++ ·) <$> order source (waiting' ++ m.token (.operator o) :: stack) rest) (rest : List Token) :
    order source stack ((ts ++ m.token (.operator o) :: us) ++ rest) =
      (out ++ waiting ++ out' ++ ·) <$> order source ((waiting' ++ [m.token (.operator o)]) ++ stack) rest := by
  rw [List.append_assoc, List.cons_append, left, order_operator o m (Lists.span_append off top), right]
  simp only [Functor.map_map, List.append_assoc, List.singleton_append]

/-- A phrase in parentheses: all its postfix tokens are out at the closing one, and a function that waits for them
is called. -/
theorem order_enclosed {e : Expression} (l r : Mark)
    (inner : ∀ stack, Admits .sum stack → ∃ out waiting, out ++ waiting = e.postorder ∧ Waiting .sum waiting ∧
      ∀ rest, order source stack (ts ++ rest) = (out ++ ·) <$> order source (waiting ++ stack) rest)
    (rest : List Token) :
    order source stack ((l.token .opening :: ts ++ [r.token .closing]) ++ rest) =
      (e.postorder ++ (order.call stack).1 ++ ·) <$> order source (order.call stack).2 rest := by
  obtain ⟨out, waiting, split, waits, run⟩ := inner (l.token .opening :: stack) (.push stack nofun rfl)
  have taken : (waiting ++ l.token .opening :: stack).span (·.kind != .opening) =
      (waiting, l.token .opening :: stack) :=
    Lists.span_append (fun t ht => bne_iff_ne.2 (Token.Kind.ne_of_bindsBefore (waits t ht)).1) (by rintro t ⟨⟩; rfl)
  rw [List.cons_append, List.cons_append, List.append_assoc, order_push (.inr (.inl rfl)), run, List.singleton_append,
    order_closing r taken, ← split]
  simp only [Functor.map_map, List.append_assoc]

end Phrase

/-- The tokens of a phrase put some of its postfix tokens out and leave the others waiting on the stack. -/
theorem order_derives {l : Level} {e : Expression} {ts : List Token} (h : Derives l e ts) (source : Text) :
    ∀ stack, Admits l stack → ∃ out waiting, out ++ waiting = e.postorder ∧ Waiting l waiting ∧
      ∀ rest, order source stack (ts ++ rest) = (out ++ ·) <$> order source (waiting ++ stack) rest := by
  induction h with
  | @sum o m e f ts us additive _ _ left right =>
    intro stack admits
    obtain ⟨out, waiting, split, waits, run⟩ := left stack admits
    have loose : (Token.Kind.operator o).bindsBefore .times = false := by cases o <;> first | rfl | cases additive
    obtain ⟨out', waiting', split', waits', run'⟩ := right (m.token (.operator o) :: stack) (.push stack nofun loose)
    refine ⟨out ++ waiting ++ out', waiting' ++ [m.token (.operator o)], ?_, ?_, ?_⟩
    · simp only [postorder, ← split, ← split', List.append_assoc]
    · exact Waiting.snoc_sum waits'.sum (by cases o <;> rfl)
    · exact order_binary (fun t ht => t.kind.bindsBefore_additive additive ▸ waits t ht)
        (fun t ht => t.kind.bindsBefore_additive additive ▸ (admits t ht).2) run run'
  | ofProduct _ ih =>
    intro stack admits
    obtain ⟨out, waiting, split, waits, run⟩ := ih stack admits.product
    exact ⟨out, waiting, split, waits.sum, run⟩
  | @product o m e f ts us multiplicative _ _ left right =>
    intro stack admits
    obtain ⟨out, waiting, split, waits, run⟩ := left stack admits
    obtain ⟨out', waiting', split', waits', run'⟩ := right (m.token (.operator o) :: stack)
      (.of_tight rfl (by rintro t ⟨⟩; nofun))
    refine ⟨out ++ waiting ++ out', waiting' ++ [m.token (.operator o)], ?_, ?_, ?_⟩
    · simp only [postorder, ← split, ← split', List.append_assoc]
    · have itself : (Token.Kind.operator o).bindsBefore .times = true := by
        cases o <;> first | rfl | cases multiplicative
      exact Waiting.snoc_product waits' itself
    · exact order_binary (fun t ht => t.kind.bindsBefore_multiplicative multiplicative ▸ waits t ht)
        (fun t ht => t.kind.bindsBefore_multiplicative multiplicative ▸ (admits t ht).2) run run'
  | ofUnary _ ih =>
    intro stack admits
    obtain ⟨out, waiting, split, waits, run⟩ := ih stack (.of_tight rfl admits.not_function)
    exact ⟨out, waiting, split, waits, run⟩
  | @negate m e ts _ ih =>
    intro stack admits
    obtain ⟨out, waiting, split, waits, run⟩ := ih (m.token .negate :: stack) (.of_tight rfl (by rintro t ⟨⟩; nofun))
    -- The sign waits below what its operand leaves, and whatever takes that off takes the sign too.
    refine ⟨out, waiting ++ [m.token .negate], ?_, Waiting.snoc_product waits rfl, fun rest => ?_⟩
    · simp only [postorder, ← split, List.append_assoc]
    · rw [List.cons_append, order_push (.inr (.inr rfl)), run, List.append_assoc, List.singleton_append]
  | ofPower _ ih =>
    intro stack admits
    obtain ⟨out, waiting, split, waits, run⟩ := ih stack (.of_tight rfl admits.not_function)
    exact ⟨out, waiting, split, waits, run⟩
  | @power m e f ts us _ _ left right =>
    intro stack admits
    obtain ⟨out, waiting, split, waits, run⟩ := left stack (.of_tight rfl admits.not_function)
    obtain ⟨out', waiting', split', waits', run'⟩ := right (m.token (.operator .power) :: stack)
      (.of_tight rfl (by rintro t ⟨⟩; nofun))
    -- A power takes nothing off, but its base is an atom and leaves nothing waiting.
    cases waits
    refine ⟨out ++ [] ++ out', waiting' ++ [m.token (.operator .power)], ?_, Waiting.snoc_product waits' rfl, ?_⟩
    · simp only [postorder, ← split, ← split', List.append_assoc, List.append_nil]
    · exact order_binary nofun (fun t _ => t.kind.bindsBefore_power) run run'
  | ofAtom _ ih =>
    intro stack admits
    obtain ⟨out, waiting, split, waits, run⟩ := ih stack (.of_tight rfl admits.not_function)
    cases waits
    exact ⟨out, [], split, nofun, run⟩
  | @operand o m =>
    intro stack _
    exact ⟨_, [], List.append_nil _, rfl, fun rest => order_operand o m⟩
  | @group l r e ts _ inner =>
    intro stack admits
    refine ⟨e.postorder, [], List.append_nil _, rfl, fun rest => ?_⟩
    rw [order_enclosed l r inner, call_of_not_function admits.not_function, List.append_nil, List.nil_append]
  | @call m l r e ts _ inner =>
    intro stack _
    refine ⟨e.postorder ++ [m.token .function], [], List.append_nil _, rfl, fun rest => ?_⟩
    have called : order.call (m.token .function :: stack) = ([m.token .function], stack) := by simp [order.call]
    rw [List.cons_append, List.cons_append, order_push (.inl rfl), order_enclosed l r inner, called, List.nil_append]

/-- The tokens of an expression are put in its postfix order. -/
theorem ofTokens_derives {e : Expression} {ts : List Token} (h : Derives .sum e ts) (source : Text) :
    ofTokens ts source = .ok ⟨e.postorder, source⟩ := by
  obtain ⟨out, waiting, split, waits, run⟩ := order_derives h source [] nofun
  have none : waiting.any waitsForClosing = false := by
    refine List.any_eq_false.2 fun t ht => ?_
    obtain ⟨notOpening, notFunction⟩ := Token.Kind.ne_of_bindsBefore (waits t ht)
    simp [waitsForClosing, notOpening, notFunction]
  have done : order source (waiting ++ []) [] = .ok waiting := by
    rw [order, List.append_nil, none]
    rfl
  rw [← List.append_nil ts, ofTokens, run, done, ← split]
  rfl

/-! ## Running -/

variable {α : Type} (meaning : Interpretation α) (source : Text)

/-- The postfix tokens of an expression put its meaning on the stack. -/
theorem foldlM_postorder (e : Expression) (stack : List α) :
    e.postorder.foldlM (step meaning source) stack = do return (← e.evalWith meaning) :: stack := by
  induction e generalizing stack with
  | operand o m =>
    simp only [postorder, List.foldlM_cons, List.foldlM_nil, bind_pure]
    rfl
  | negate m e ih =>
    simp only [postorder, List.foldlM_append, ih, List.foldlM_cons, List.foldlM_nil, bind_pure, bind_assoc, pure_bind,
      evalWith]
    rfl
  | binary o m left right ihl ihr =>
    simp only [postorder, List.foldlM_append, ihl, ihr, List.foldlM_cons, List.foldlM_nil, bind_pure, bind_assoc,
      pure_bind, evalWith]
    rfl
  | call m argument ih =>
    simp only [postorder, List.foldlM_append, ih, List.foldlM_cons, List.foldlM_nil, bind_pure, bind_assoc, pure_bind,
      evalWith]
    rfl
  | group e ih => exact ih stack

/-- Running the postfix tokens of an expression gives its meaning. -/
theorem run_postorder (e : Expression) : run meaning ⟨e.postorder, source⟩ = e.evalWith meaning := by
  rw [run, foldlM_postorder]
  simp only [bind_assoc, pure_bind]
  exact bind_pure _

/-- All expressions that tokens stand for have one meaning. -/
theorem evalWith_unique {e f : Expression} {ts : List Token} (he : Derives .sum e ts) (hf : Derives .sum f ts) :
    e.evalWith meaning = f.evalWith meaning := by
  have same : e.postorder = f.postorder :=
    congrArg tokens (Except.ok.inj ((ofTokens_derives he []).symm.trans (ofTokens_derives hf [])))
  rw [← run_postorder meaning [] e, same, run_postorder]

/-- The value of the postfix form of an expression is the value of the expression. -/
theorem eval_postorder (scope : Scope) (e : Expression) :
    Postfix.eval scope ⟨e.postorder, source⟩ = e.eval scope source := by
  rw [Postfix.eval, Scope.run, run_postorder, Expression.eval]

/-! ## Conversion and evaluation -/

/-- The infix tokens of an expression are converted to its postfix order, and evaluating those gives in every scope the
value of the expression or its first failure. -/
theorem conversion_evaluates {e : Expression} {ts : List Token} (h : Derives .sum e ts) (source : Text) :
    ofTokens ts source = .ok ⟨e.postorder, source⟩ ∧
      ∀ scope : Scope, Postfix.eval scope ⟨e.postorder, source⟩ = e.eval scope source :=
  ⟨ofTokens_derives h source, fun scope => eval_postorder source scope e⟩

/-- The tree of `a^-b^c*d`: the exponent of `a` is the negated power, and the product comes last. -/
def powerOfNegation : Expression :=
  .binary .times ⟨['*'], 6⟩
    (.binary .power ⟨['^'], 1⟩ (.operand .identifier ⟨['a'], 0⟩)
      (.negate ⟨['-'], 2⟩
        (.binary .power ⟨['^'], 4⟩ (.operand .identifier ⟨['b'], 3⟩) (.operand .identifier ⟨['c'], 5⟩))))
    (.operand .identifier ⟨['d'], 7⟩)

/-- The tokens of `a^-b^c*d`. -/
def powerOfNegationTokens : List Token :=
  [⟨.operand .identifier, ['a'], 0⟩, ⟨.operator .power, ['^'], 1⟩, ⟨.negate, ['-'], 2⟩,
    ⟨.operand .identifier, ['b'], 3⟩, ⟨.operator .power, ['^'], 4⟩, ⟨.operand .identifier, ['c'], 5⟩,
    ⟨.operator .times, ['*'], 6⟩, ⟨.operand .identifier, ['d'], 7⟩]

theorem powerOfNegation_evaluates :
    Derives .sum powerOfNegation powerOfNegationTokens ∧
      ofTokens powerOfNegationTokens "a^-b^c*d".toList = .ok ⟨powerOfNegation.postorder, "a^-b^c*d".toList⟩ ∧
      ∀ scope : Scope, Postfix.eval scope ⟨powerOfNegation.postorder, "a^-b^c*d".toList⟩ =
        powerOfNegation.eval scope "a^-b^c*d".toList := by
  have tail : Derives .unary _ _ := .ofPower (.power (m := ⟨['^'], 4⟩) (.operand (o := .identifier) (m := ⟨['b'], 3⟩))
    (.ofPower (.ofAtom (.operand (o := .identifier) (m := ⟨['c'], 5⟩)))))
  have head : Derives .power _ _ := .power (m := ⟨['^'], 1⟩) (.operand (o := .identifier) (m := ⟨['a'], 0⟩))
    (.negate (m := ⟨['-'], 2⟩) tail)
  have whole : Derives .sum powerOfNegation powerOfNegationTokens :=
    .ofProduct (.product (m := ⟨['*'], 6⟩) rfl (.ofUnary (.ofPower head))
      (.ofPower (.ofAtom (.operand (o := .identifier) (m := ⟨['d'], 7⟩)))))
  exact ⟨whole, conversion_evaluates whole _⟩

end Expression

end Reckoner
