import Reckoner.Proofs.Expression.Conversion
import Reckoner.Proofs.Token.Placement
/-!
# Conservation of tokens

Putting tokens in postfix order neither loses nor makes up any of them, however they stand. Main statement: any tokens
are refused, or they come out without their parentheses and with the operands in their order; and where every function
has its parenthesis right after it, they are refused just if the parentheses do not match. What one token does to the
stack is said once, in `Step`.
-/

namespace Reckoner

namespace Token

/-! ## Parentheses -/

def isParenthesis (t : Token) : Bool := t.kind == .opening || t.kind == .closing

def isOperand (t : Token) : Bool := match t.kind with
  | .operand _ => true
  | _ => false

/-- The tokens that are no parentheses. -/
def withoutParentheses (ts : List Token) : List Token := ts.filter (!·.isParenthesis)

def operands (ts : List Token) : List Token := ts.filter isOperand

def openings (ts : List Token) : Nat := ts.countP (·.kind == .opening)

def closings (ts : List Token) : Nat := ts.countP (·.kind == .closing)

/-- Parentheses that match if `depth` are open before them: at no token are more closed than open, and at the end all
are closed. -/
structure Matched (depth : Nat) (ts : List Token) : Prop where
  within : ∀ front, front <+: ts → closings front ≤ depth + openings front
  settled : closings ts = depth + openings ts

/-- Every function has an opening parenthesis right after it. -/
def CallsOpen (ts : List Token) : Prop :=
  ∀ i f, ts[i]? = some f → f.kind = .function → ∃ t, ts[i + 1]? = some t ∧ t.kind = .opening

variable {depth depth' : Nat} {t : Token} {ts us : List Token}

theorem withoutParentheses_append (ts us : List Token) :
    withoutParentheses (ts ++ us) = withoutParentheses ts ++ withoutParentheses us := List.filter_append ..

theorem operands_append (ts us : List Token) : operands (ts ++ us) = operands ts ++ operands us := List.filter_append ..

theorem withoutParentheses_cons (h : t.isParenthesis = false) :
    withoutParentheses (t :: ts) = t :: withoutParentheses ts :=
  List.filter_cons_of_pos (by rw [h]; rfl)

theorem withoutParentheses_parenthesis (h : t.isParenthesis = true) : withoutParentheses (t :: ts) = withoutParentheses ts :=
  List.filter_cons_of_neg (by rw [h]; exact Bool.false_ne_true)

theorem openings_append (ts us : List Token) : openings (ts ++ us) = openings ts + openings us := List.countP_append

theorem closings_append (ts us : List Token) : closings (ts ++ us) = closings ts + closings us := List.countP_append

theorem openings_singleton (t : Token) : openings [t] = if t.kind = .opening then 1 else 0 := by
  simp [openings, List.countP_cons]

theorem closings_singleton (t : Token) : closings [t] = if t.kind = .closing then 1 else 0 := by
  simp [closings, List.countP_cons]

theorem openings_cons (t : Token) (ts : List Token) : openings (t :: ts) = openings [t] + openings ts :=
  openings_append [t] ts

theorem closings_cons (t : Token) (ts : List Token) : closings (t :: ts) = closings [t] + closings ts :=
  closings_append [t] ts

theorem openings_eq_zero : openings ts = 0 ↔ ∀ w ∈ ts, w.kind ≠ .opening := by
  simp [openings, List.countP_eq_zero]

/-- One token changes the number of open parentheses by those it opens and closes itself. -/
theorem depthAfter?_eq_some : t.kind.depthAfter? depth = some depth' ↔
    depth' + closings [t] = depth + openings [t] := by
  rw [openings_singleton, closings_singleton]
  cases t.kind with
  | closing =>
    simp only [Kind.depthAfter?, reduceCtorEq, if_true, if_false]
    split
    · simp only [reduceCtorEq, false_iff]
      omega
    · rw [Option.some.injEq]
      omega
  | _ =>
    simp only [Kind.depthAfter?, reduceCtorEq, if_true, if_false, Option.some.injEq]
    omega

theorem matched_nil : Matched depth [] ↔ depth = 0 := by
  constructor
  · intro h
    exact h.settled.symm
  · rintro rfl
    refine ⟨fun front first => ?_, rfl⟩
    rw [List.prefix_nil.1 first]
    exact Nat.le_refl 0

/-- The first of some tokens leaves the others to match what is open after it. -/
theorem matched_cons : Matched depth (t :: ts) ↔ ∃ depth', t.kind.depthAfter? depth = some depth' ∧ Matched depth' ts := by
  constructor
  · intro h
    have first := h.within [t] (List.prefix_append [t] ts)
    obtain ⟨depth', step⟩ : ∃ depth', depth' + closings [t] = depth + openings [t] :=
      ⟨depth + openings [t] - closings [t], Nat.sub_add_cancel first⟩
    refine ⟨depth', depthAfter?_eq_some.2 step, fun front begins => ?_, ?_⟩
    · have bound := h.within (t :: front) (List.cons_prefix_cons.2 ⟨rfl, begins⟩)
      rw [closings_cons, openings_cons] at bound
      omega
    · have total := h.settled
      rw [closings_cons, openings_cons] at total
      omega
  · rintro ⟨depth', step, h⟩
    rw [depthAfter?_eq_some] at step
    refine ⟨fun front begins => ?_, ?_⟩
    · cases front with
      | nil => exact Nat.zero_le _
      | cons u front =>
        obtain ⟨rfl, first⟩ := List.cons_prefix_cons.1 begins
        have bound := h.within front first
        rw [closings_cons, openings_cons]
        omega
    · have total := h.settled
      rw [closings_cons, openings_cons]
      omega

instance decidableMatched : ∀ depth ts, Decidable (Matched depth ts)
  | _, [] => decidable_of_iff _ matched_nil.symm
  | depth, t :: ts =>
    match after : t.kind.depthAfter? depth with
    | some depth' =>
      have := decidableMatched depth' ts
      decidable_of_iff (Matched depth' ts) (by simp [matched_cons, after])
    | none => isFalse (by simp [matched_cons, after])

theorem callsOpen_nil : CallsOpen [] := fun _ _ found => nomatch found

theorem callsOpen_cons : CallsOpen (t :: ts) ↔
    (t.kind = .function → ts.head?.map kind = some .opening) ∧ CallsOpen ts := by
  constructor
  · intro h
    refine ⟨fun function => ?_, fun i f found => h (i + 1) f found⟩
    obtain ⟨u, next, opening⟩ := h 0 t rfl function
    rw [List.getElem?_cons_succ] at next
    rw [List.head?_eq_getElem?, next, Option.map_some, opening]
  · rintro ⟨first, h⟩ i f found function
    cases i with
    | zero =>
      cases found
      obtain ⟨u, next, opening⟩ := Option.map_eq_some_iff.1 (first function)
      exact ⟨u, by rw [← next, List.head?_eq_getElem?]; rfl, opening⟩
    | succ i => exact h i f found function

end Token

namespace Postfix

open Token

/-! ## One token -/

/-- What a token puts out of what waits on the stack, and what waits afterwards. -/
inductive Step (t : Token) : List Token → List Token → List Token → Prop where
  | operand {stack o} : t.kind = .operand o → Step t stack [t] stack
  | wait {stack} : t.kind = .function ∨ t.kind = .opening ∨ t.kind = .negate → Step t stack [] (t :: stack)
  | operator {o taken left} : t.kind = .operator o → (∀ w ∈ taken, w.kind.bindsBefore o = true) →
      Step t (taken ++ left) taken (t :: left)
  | close {taken l called left} : t.kind = .closing → (∀ w ∈ taken, w.kind ≠ .opening) → l.kind = .opening →
      (∀ w ∈ called, w.kind = .function) → (called = [] → ∀ w ∈ left.head?, w.kind ≠ .function) →
      Step t (taken ++ l :: (called ++ left)) (taken ++ called) left

variable {source : Text} {stack stack' out below rest : List Token} {t : Token} {above next : Option Token.Kind}

/-- A function on top is called, and none is on top if none is called. -/
theorem exists_call (below : List Token) : ∃ called left, order.call below = (called, left) ∧ below = called ++ left ∧
    (∀ w ∈ called, w.kind = .function) ∧ (called = [] → ∀ w ∈ left.head?, w.kind ≠ .function) := by
  by_cases function : ∀ w ∈ below.head?, w.kind ≠ .function
  · exact ⟨[], below, call_of_not_function function, rfl, nofun, fun _ => function⟩
  · push Not at function
    obtain ⟨f, top, function⟩ := function
    obtain ⟨left, rfl⟩ := List.head?_eq_some_iff.1 top
    exact ⟨[f], left, if_pos function, rfl, by simpa using function, nofun⟩

/-- A token makes a step, unless it closes a parenthesis and none is open. -/
theorem order_cons (source : Text) (stack : List Token) (t : Token) (rest : List Token) :
    (∃ out stack', Step t stack out stack' ∧
      order source stack (t :: rest) = (out ++ ·) <$> order source stack' rest) ∨
    (t.kind = .closing ∧ (∀ w ∈ stack, w.kind ≠ .opening) ∧
      order source stack (t :: rest) = refuse (.mismatchedParentheses source)) := by
  obtain ⟨kind, value, position⟩ := t
  cases kind with
  | operand o => exact .inl ⟨_, _, .operand rfl, order_operand o ⟨value, position⟩⟩
  | function => exact .inl ⟨[], _, .wait (.inl rfl), (order_push (.inl rfl)).trans (id_map _).symm⟩
  | opening => exact .inl ⟨[], _, .wait (.inr (.inl rfl)), (order_push (.inr (.inl rfl))).trans (id_map _).symm⟩
  | negate => exact .inl ⟨[], _, .wait (.inr (.inr rfl)), (order_push (.inr (.inr rfl))).trans (id_map _).symm⟩
  | operator o =>
    obtain ⟨taken, left, split, rfl, binds⟩ := Lists.exists_span (fun w : Token => w.kind.bindsBefore o) stack
    exact .inl ⟨_, _, .operator rfl binds, order_operator o ⟨value, position⟩ split⟩
  | closing =>
    obtain ⟨taken, left, split, rfl, others⟩ := Lists.exists_span (fun w : Token => w.kind != .opening) stack
    have others : ∀ w ∈ taken, w.kind ≠ .opening := fun w mem => bne_iff_ne.1 (others w mem)
    cases left with
    | nil =>
      refine .inr ⟨rfl, by simpa using others, ?_⟩
      rw [order]
      simp only [split]
    | cons l below =>
      have opening : l.kind = .opening := by
        have stops := List.head?_dropWhile_not (fun w : Token => w.kind != .opening) (taken ++ l :: below)
        rw [List.span_eq_takeWhile_dropWhile, Prod.mk.injEq] at split
        rw [split.2] at stops
        simpa using stops
      obtain ⟨called, left, call, rfl, functions, top⟩ := exists_call below
      refine .inl ⟨_, _, .close rfl others opening functions top, ?_⟩
      refine (order_closing ⟨value, position⟩ split).trans ?_
      rw [call]

theorem ne_opening_of_bindsBefore {o : Operator} (binds : ∀ w ∈ stack, w.kind.bindsBefore o = true) :
    ∀ w ∈ stack, w.kind ≠ .opening := fun w mem => (Token.Kind.ne_of_bindsBefore (binds w mem)).1

theorem ne_opening_of_function (functions : ∀ w ∈ stack, w.kind = .function) : ∀ w ∈ stack, w.kind ≠ .opening := by
  intro w mem opening
  cases (functions w mem).symm.trans opening

/-! ## What waits on the stack -/

/-- Neither operands nor closing parentheses wait on the stack. -/
def Waits (stack : List Token) : Prop := ∀ w ∈ stack, w.kind ≠ .closing ∧ w.isOperand = false

theorem Waits.of_subset {part : List Token} (h : Waits stack) (within : part ⊆ stack) : Waits part :=
  fun w mem => h w (within mem)

theorem Waits.push (h : Waits stack) (closing : t.kind ≠ .closing) (operand : t.isOperand = false) :
    Waits (t :: stack) :=
  List.forall_mem_cons.2 ⟨⟨closing, operand⟩, h⟩

theorem Waits.operands_eq (h : Waits stack) : operands stack = [] :=
  List.filter_eq_nil_iff.2 fun w mem => by simp [(h w mem).2]

/-- What waits and is no opening parenthesis is no parenthesis. -/
theorem Waits.withoutParentheses_eq (h : Waits stack) (others : ∀ w ∈ stack, w.kind ≠ .opening) :
    withoutParentheses stack = stack :=
  List.filter_eq_self.2 fun w mem => by simp [isParenthesis, (h w mem).1, others w mem]

theorem Step.waits (h : Step t stack out stack') (waits : Waits stack) : Waits stack' := by
  cases h with
  | operand => exact waits
  | wait kind => rcases kind with kind | kind | kind <;> exact waits.push (by simp [kind]) (by simp [isOperand, kind])
  | operator kind =>
    have left := waits.of_subset (List.subset_append_right _ _)
    exact left.push (by simp [kind]) (by simp [isOperand, kind])
  | close => exact waits.of_subset fun w mem => by simp [mem]

/-! ## No token is lost -/

/-- What a step puts out and what waits after it are what waited and the token, without parentheses. -/
theorem Step.perm (h : Step t stack out stack') (waits : Waits stack) :
    (out ++ withoutParentheses stack').Perm (withoutParentheses (t :: stack)) := by
  cases h with
  | operand kind =>
    rw [withoutParentheses_cons (by simp [isParenthesis, kind])]
    exact .refl _
  | wait => exact .refl _
  | operator kind binds =>
    have kept : withoutParentheses out = out :=
      (waits.of_subset (List.subset_append_left _ _)).withoutParentheses_eq (ne_opening_of_bindsBefore binds)
    have this : t.isParenthesis = false := by simp [isParenthesis, kind]
    rw [withoutParentheses_cons this, withoutParentheses_cons this, withoutParentheses_append, kept]
    exact List.perm_middle
  | @close taken l called _ kind others opening functions =>
    have kept : withoutParentheses taken = taken :=
      (waits.of_subset (List.subset_append_left _ _)).withoutParentheses_eq others
    have kept' : withoutParentheses called = called :=
      (waits.of_subset fun w mem => by simp [mem]).withoutParentheses_eq (ne_opening_of_function functions)
    rw [withoutParentheses_parenthesis (by simp [isParenthesis, kind]), withoutParentheses_append,
      withoutParentheses_parenthesis (by simp [isParenthesis, opening]), withoutParentheses_append, kept, kept',
      List.append_assoc]

/-- A step puts no operand out but the token. -/
theorem Step.operands (h : Step t stack out stack') (waits : Waits stack) : operands out = operands [t] := by
  cases h with
  | operand => rfl
  | wait kind => rcases kind with kind | kind | kind <;> simp [Token.operands, isOperand, kind]
  | operator kind =>
    rw [(waits.of_subset (List.subset_append_left _ _)).operands_eq]
    simp [Token.operands, isOperand, kind]
  | @close taken l called _ kind =>
    have out : taken ++ called ⊆ taken ++ l :: (called ++ stack') := by
      intro w mem
      rcases List.mem_append.1 mem with mem | mem <;> simp [mem]
    rw [(waits.of_subset out).operands_eq]
    simp [Token.operands, isOperand, kind]

/-- Any tokens are refused, or they come out together with what waited before them, without parentheses and with the
operands in their order. The induction is on the tokens, a step each. -/
theorem order_conserves (source : Text) (ts : List Token) : ∀ stack, Waits stack →
    order source stack ts = refuse (.mismatchedParentheses source) ∨
      ∃ out, order source stack ts = .ok out ∧ out.Perm (withoutParentheses (stack ++ ts)) ∧
        operands out = operands ts := by
  induction ts with
  | nil =>
    intro stack waits
    rw [order]
    split
    next => exact .inl rfl
    next none =>
      have others : ∀ w ∈ stack, w.kind ≠ .opening := fun w mem opening =>
        none (List.any_eq_true.2 ⟨w, mem, by simp [waitsForClosing, opening]⟩)
      refine .inr ⟨stack, rfl, ?_, waits.operands_eq⟩
      rw [List.append_nil, waits.withoutParentheses_eq others]
  | cons t rest ih =>
    intro stack waits
    rcases order_cons source stack t rest with ⟨out, stack', step, run⟩ | ⟨-, -, refused⟩
    · rw [run]
      rcases ih stack' (step.waits waits) with refused | ⟨out', following, perm, order'⟩
      · exact .inl (by rw [refused]; rfl)
      · refine .inr ⟨out ++ out', by rw [following]; rfl, ?_, ?_⟩
        · have parts : (out ++ out').Perm (out ++ withoutParentheses stack' ++ withoutParentheses rest) := by
            rw [List.append_assoc, ← withoutParentheses_append]
            exact perm.append_left out
          have whole : (withoutParentheses (t :: stack) ++ withoutParentheses rest).Perm
              (withoutParentheses (stack ++ t :: rest)) := by
            rw [← withoutParentheses_append]
            exact List.perm_middle.symm.filter _
          exact (parts.trans ((step.perm waits).append_right _)).trans whole
        · rw [operands_append, step.operands waits, order', ← operands_append]
          rfl
    · exact .inl refused

/-! ## Which tokens are refused -/

/-- A step changes the number of waiting parentheses as its token changes the number of open ones. -/
theorem Step.depth (h : Step t stack out stack') : t.kind.depthAfter? (openings stack) = some (openings stack') := by
  rw [depthAfter?_eq_some]
  cases h with
  | operand kind => simp [openings_singleton, closings_singleton, kind]
  | wait kind =>
    rw [openings_cons, closings_singleton]
    rcases kind with kind | kind | kind <;> simp [kind] <;> omega
  | operator kind binds =>
    have none : openings out = 0 := openings_eq_zero.2 (ne_opening_of_bindsBefore binds)
    rw [openings_cons, openings_append, none]
    simp [openings_singleton, closings_singleton, kind]
  | @close taken l called _ kind others opening functions =>
    have none : openings taken = 0 := openings_eq_zero.2 others
    have none' : openings called = 0 := openings_eq_zero.2 (ne_opening_of_function functions)
    rw [openings_append, openings_cons, openings_append, none, none']
    simp [openings_singleton, closings_singleton, kind, opening]
    omega

/-- Above every function stands an opening parenthesis; above the top stands the token that comes next, if any. -/
def Covered : Option Token.Kind → List Token → Prop
  | _, [] => True
  | above, w :: below => (w.kind = .function → above = some .opening) ∧ Covered (some w.kind) below

/-- Without an opening parenthesis above it no function is on top, and so anything may come there. -/
theorem Covered.any (h : Covered above stack) (top : above ≠ some .opening) : Covered next stack := by
  cases stack with
  | nil => trivial
  | cons w below => exact ⟨fun function => absurd (h.1 function) top, h.2⟩

/-- So it is below tokens that are no opening parentheses. -/
theorem Covered.drop {taken left : List Token} (h : Covered above (taken ++ left)) (top : above ≠ some .opening)
    (others : ∀ w ∈ taken, w.kind ≠ .opening) : Covered next left := by
  induction taken generalizing above with
  | nil => exact h.any top
  | cons w taken ih =>
    obtain ⟨first, others⟩ := List.forall_mem_cons.1 others
    exact ih h.2 (by simpa using first) others

/-- Functions are covered again after a token that is no function, or a function that an opening parenthesis follows. -/
theorem Step.covered (h : Step t stack out stack') (covered : Covered (some t.kind) stack)
    (call : t.kind = .function → next = some .opening) : Covered next stack' := by
  cases h with
  | operand kind => exact covered.any (by simp [kind])
  | wait => exact ⟨call, covered⟩
  | operator kind binds =>
    exact ⟨call, covered.drop (by simp [kind]) (ne_opening_of_bindsBefore binds)⟩
  | @close taken l called _ kind others opening functions top =>
    have inner : Covered none (l :: (called ++ stack')) := covered.drop (by simp [kind]) others
    cases called with
    | nil =>
      cases stack' with
      | nil => trivial
      | cons w below => exact ⟨fun function => absurd function (top rfl w rfl), inner.2.2⟩
    | cons f called =>
      obtain ⟨first, functions⟩ := List.forall_mem_cons.1 functions
      have below : Covered (some f.kind) (called ++ stack') := inner.2.2
      exact below.drop (by simp [first]) (ne_opening_of_function functions)

/-- Where a function waits, an opening parenthesis does. -/
theorem Covered.not_function (h : Covered above stack) (top : above ≠ some .opening)
    (others : ∀ w ∈ stack, w.kind ≠ .opening) : ∀ w ∈ stack, w.kind ≠ .function := by
  intro w mem function
  obtain ⟨front, below, rfl⟩ := List.append_of_mem mem
  have covered : Covered none (w :: below) :=
    h.drop top fun w mem => others w (List.mem_append_left _ mem)
  exact absurd (covered.1 function) nofun

theorem order_nil_eq_ok_iff (source : Text) (stack : List Token) :
    (∃ out, order source stack [] = .ok out) ↔ ∀ w ∈ stack, w.kind ≠ .opening ∧ w.kind ≠ .function := by
  have any : stack.any waitsForClosing = false ↔ ∀ w ∈ stack, w.kind ≠ .opening ∧ w.kind ≠ .function := by
    simp [waitsForClosing]
  rw [order, ← any]
  constructor
  · rintro ⟨out, run⟩
    split at run
    next => exact absurd run Outcome.refuse_ne_ok
    next none => exact Bool.eq_false_iff.2 none
  · intro none
    exact ⟨stack, by rw [none]; rfl⟩

/-- Where every function has its parenthesis, the tokens come out just if the parentheses match those that wait. -/
theorem order_eq_ok_iff (source : Text) (ts : List Token) : ∀ stack, Covered (ts.head?.map Token.kind) stack →
    CallsOpen ts → ((∃ out, order source stack ts = .ok out) ↔ Matched (openings stack) ts) := by
  induction ts with
  | nil =>
    intro stack covered _
    rw [order_nil_eq_ok_iff, matched_nil, openings_eq_zero]
    constructor
    · intro none w mem
      exact (none w mem).1
    · intro others w mem
      exact ⟨others w mem, covered.not_function nofun others w mem⟩
  | cons t rest ih =>
    intro stack covered calls
    obtain ⟨call, calls⟩ := callsOpen_cons.1 calls
    rw [matched_cons]
    rcases order_cons source stack t rest with ⟨out, stack', step, run⟩ | ⟨kind, others, refused⟩
    · have following := ih stack' (step.covered covered call) calls
      rw [step.depth, run]
      constructor
      · rintro ⟨out', ordered⟩
        obtain ⟨out', ordered, -⟩ := Outcome.map_eq_ok.1 ordered
        exact ⟨_, rfl, following.1 ⟨out', ordered⟩⟩
      · rintro ⟨depth, same, matched⟩
        cases same
        obtain ⟨out', ordered⟩ := following.2 matched
        exact ⟨out ++ out', by rw [ordered]; rfl⟩
    · rw [openings_eq_zero.2 others, kind, refused]
      constructor
      · rintro ⟨out, ordered⟩
        exact absurd ordered Outcome.refuse_ne_ok
      · rintro ⟨depth, none, -⟩
        cases none

/-- Any tokens at all are refused as malformed, or they come out, each of them once but for the parentheses, and the
operands in their order. If every function has an opening parenthesis right after it, they are
refused just if the parentheses do not match. -/
theorem ofTokens_conserves (tokens : List Token) (source : Text) :
    (Fault.mismatchedParentheses source).family = .malformed ∧
    (ofTokens tokens source = refuse (.mismatchedParentheses source) ∨ ∃ out, ofTokens tokens source = .ok ⟨out, source⟩ ∧
      out.Perm (withoutParentheses tokens) ∧ operands out = operands tokens) ∧
    (CallsOpen tokens → (ofTokens tokens source = refuse (.mismatchedParentheses source) ↔ ¬Matched 0 tokens)) := by
  have kept := order_conserves source tokens [] nofun
  refine ⟨rfl, ?_, fun calls => ?_⟩
  · rcases kept with refused | ⟨out, ordered, perm, order'⟩
    · exact .inl (by rw [ofTokens, refused]; rfl)
    · exact .inr ⟨out, by rw [ofTokens, ordered]; rfl, perm, order'⟩
  · have accepted : (∃ out, order source [] tokens = .ok out) ↔ Matched 0 tokens :=
      order_eq_ok_iff source tokens [] trivial calls
    rw [← accepted]
    rcases kept with refused | ⟨out, ordered, -, -⟩
    · rw [ofTokens, refused]
      refine iff_of_true rfl ?_
      rintro ⟨out, ordered⟩
      exact absurd ordered Outcome.refuse_ne_ok
    · rw [ofTokens, ordered]
      refine iff_of_false Outcome.refuse_ne_ok.symm ?_
      intro none
      exact none ⟨out, rfl⟩

/-- Otherwise they may be refused although no parenthesis is missing. -/
example : Matched 0 [⟨.function, ['f'], 0⟩] ∧
    ofTokens [⟨.function, ['f'], 0⟩] ['f'] = refuse (.mismatchedParentheses ['f']) := by decide

/-- The tokens of `+f()2`, which no expression has. -/
def misplacedCall : List Token :=
  [⟨.operator .plus, ['+'], 0⟩, ⟨.function, ['f'], 1⟩, ⟨.opening, ['('], 2⟩, ⟨.closing, [')'], 3⟩,
    ⟨.operand .number, ['2'], 4⟩]

theorem ofTokens_conserves_misplacedCall : CallsOpen misplacedCall ∧ Matched 0 misplacedCall ∧
    ofTokens misplacedCall ['+', 'f', '(', ')', '2'] ≠ refuse (.mismatchedParentheses ['+', 'f', '(', ')', '2']) := by
  have calls : CallsOpen misplacedCall := by simp [misplacedCall, callsOpen_cons, callsOpen_nil]
  have matched : Matched 0 misplacedCall := by decide
  exact ⟨calls, matched, fun refused =>
    ((ofTokens_conserves misplacedCall ['+', 'f', '(', ')', '2']).2.2 calls).1 refused matched⟩

end Postfix

end Reckoner
