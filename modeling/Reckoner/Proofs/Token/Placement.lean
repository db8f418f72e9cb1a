import Reckoner.Proofs.Outcome
import Reckoner.Token.Lexer
/-!
# Where tokens stand

What reading guarantees about a row of tokens: operands and operators alternate, parentheses match, and a name that is
called has its opening parenthesis right after it.
-/

namespace Reckoner.Token

/-- Whether a token stands where an operand is expected. -/
def Kind.beginsOperand : Kind → Bool
  | .operand _ | .function | .opening | .negate => true
  | .operator _ | .closing => false

/-- The number of open parentheses after a token, if it closes none that is not open. -/
def Kind.depthAfter? (depth : Nat) : Kind → Option Nat
  | .opening => some (depth + 1)
  | .closing => if depth = 0 then none else some (depth - 1)
  | _ => some depth

/-- A row of tokens that stands after the token `last` and inside `depth` open parentheses, and closes them all. -/
def WellPlaced (depth : Nat) (last : Option Kind) : List Token → Prop
  | [] => depth = 0 ∧ expectsOperand last = false
  | t :: rest =>
    t.kind.beginsOperand = expectsOperand last ∧
    (last = some .function → t.kind = .opening) ∧
    ∃ depth', t.kind.depthAfter? depth = some depth' ∧ WellPlaced depth' (some t.kind) rest

/-! ## One lexeme -/

/-- A digit begins a number or an imaginary number. -/
theorem lexeme?_digit {c : Char} {rest : Text} (digit : CharClass.isDigit c = true) :
    lexeme? c rest = some (if unitAhead ((c :: rest).drop (numberLength (c :: rest)))
      then (.operand .imaginary, numberLength (c :: rest)) else (.operand .number, numberLength (c :: rest) - 1)) := by
  have bracket : c ≠ '[' := by
    rintro rfl
    exact absurd digit (by decide)
  rw [lexeme?, if_neg bracket, if_pos digit]

theorem nesting_eq_ok {source : Text} {position depth depth' : Nat} {k : Kind}
    (h : nesting source position depth k = .ok depth') : k.depthAfter? depth = some depth' := by
  cases k <;> simp only [nesting] at h
  case closing =>
    split at h
    next => exact absurd h Outcome.refuse_ne_ok
    next positive => rw [Kind.depthAfter?, if_neg positive, Except.ok.inj h]
  all_goals exact congrArg some (Except.ok.inj h)

/-- What is put out for a lexeme: a multiplication sign if one is left out, and the token. -/
def emitted (last : Option Kind) (t : Token) : List Token :=
  if joins last t.kind then [⟨.operator .times, ['*'], t.position⟩, t] else [t]

/-- Reading a text that starts with a lexeme. -/
theorem scan_cons_eq_ok {source : Text} {position depth : Nat} {last : Option Kind} {c : Char} {rest : Text}
    {ts : List Token} (h : scan source position depth last (c :: rest) = .ok ts) :
    ∃ form n depth' following, lexeme? c rest = some (form, n) ∧
      (resolve last form).depthAfter? depth = some depth' ∧ fits last (resolve last form) = true ∧
      scan source (position + n + 1) depth' (some (resolve last form)) (rest.drop n) = .ok following ∧
      ts = emitted last ⟨resolve last form, c :: rest.take n, position⟩ ++ following := by
  rw [scan] at h
  split at h
  next => split at h <;> exact absurd h Outcome.refuse_ne_ok
  next form n found =>
    obtain ⟨depth', nested, h⟩ := Outcome.bind_eq_ok.1 h
    split at h
    next => exact absurd h Outcome.refuse_ne_ok
    next placed =>
      obtain ⟨following, read, h⟩ := Outcome.bind_eq_ok.1 h
      refine ⟨form, n, depth', following, found, nesting_eq_ok nested, by simpa using placed, read, ?_⟩
      rw [← Except.ok.inj h, emitted]
      split <;> rfl

/-- The kinds of lexemes: a name is called where a parenthesis follows it, and no lexeme is a negation. -/
theorem lexeme?_kind {c : Char} {rest : Text} {form : Kind} {n : Nat} (h : lexeme? c rest = some (form, n)) :
    form ≠ .negate ∧ (form = .function → (rest.drop n).head? = some '(') := by
  by_cases operand : c = '[' ∨ CharClass.isDigit c = true ∨ unitAhead (c :: rest) = true ∨ CharClass.isPlainLetter c
  · grind [lexeme?, Option.map_eq_some_iff]
  · grind [lexeme?]

/-- A minus sign is a negation exactly where an operand is expected. -/
theorem resolve_eq_negate {last : Option Kind} {form : Kind} (lexeme : form ≠ .negate)
    (h : resolve last form = .negate) : expectsOperand last = true := by
  cases form with
  | operator o => cases o <;> simp_all [resolve]
  | _ => simp_all [resolve]

theorem resolve_eq_function {last : Option Kind} {form : Kind} (h : resolve last form = .function) :
    form = .function := by
  cases form with
  | operator o =>
    cases o <;> simp only [resolve, reduceCtorEq] at h
    split at h <;> cases h
  | function => rfl
  | _ => cases h

/-! ## A row of lexemes -/

/-- A token is in place after what is put out before it. -/
theorem wellPlaced_emitted {depth depth' : Nat} {last : Option Kind} {t : Token} {rest : List Token}
    (fit : fits last t.kind = true) (negated : t.kind = .negate → expectsOperand last = true)
    (called : last = some .function → t.kind = .opening) (nested : t.kind.depthAfter? depth = some depth')
    (h : WellPlaced depth' (some t.kind) rest) : WellPlaced depth last (emitted last t ++ rest) := by
  unfold emitted
  split
  next joined =>
    -- A sign is left out only between an operand and a token that begins the next one.
    have after : expectsOperand last = false := by cases kind : t.kind <;> simp_all [joins]
    have begins : t.kind.beginsOperand = true := by cases kind : t.kind <;> simp_all [joins, Kind.beginsOperand]
    have notCalled : last ≠ some .function := by rintro rfl; cases after
    exact ⟨after.symm, fun c => absurd c notCalled, depth, rfl, begins, nofun, depth', nested, h⟩
  next apart =>
    refine ⟨?_, called, depth', nested, h⟩
    cases kind : t.kind <;> simp_all [joins, fits, Kind.beginsOperand]

/-- Reading a text gives tokens that stand in place. -/
theorem scan_wellPlaced {source : Text} {position depth : Nat} {last : Option Kind} {t : Text} {ts : List Token}
    (h : scan source position depth last t = .ok ts) (called : last = some .function → t.head? = some '(') :
    WellPlaced depth last ts := by
  match t with
  | [] =>
    rw [scan] at h
    split at h
    next => exact absurd h Outcome.refuse_ne_ok
    next closed =>
      split at h
      next => exact absurd h Outcome.refuse_ne_ok
      next complete =>
        cases h
        exact ⟨Decidable.not_not.1 closed, Bool.eq_false_iff.2 complete⟩
  | c :: rest =>
    obtain ⟨form, n, depth', following, found, nested, fit, read, rfl⟩ := scan_cons_eq_ok h
    obtain ⟨notNegate, paren⟩ := lexeme?_kind found
    -- What follows a called name is the parenthesis that made it one.
    refine wellPlaced_emitted fit (resolve_eq_negate notNegate) (fun function => ?_) nested
      (scan_wellPlaced read fun function => ?_)
    · have opening : c = '(' := by simpa using called function
      subst opening
      cases (show lexeme? '(' rest = some (.opening, 0) from rfl).symm.trans found
      rfl
    · exact paren (resolve_eq_function (Option.some.inj function))
termination_by t.length
decreasing_by simp only [List.length_drop, List.length_cons]; omega

/-- The tokens of an accepted expression stand in place. -/
theorem tokenize_wellPlaced {expression source : Text} {ts : List Token}
    (h : tokenize expression source = .ok ts) : WellPlaced 0 none ts := by
  simp only [tokenize] at h
  split at h
  next => exact absurd h Outcome.refuse_ne_ok
  next => exact scan_wellPlaced h nofun

end Reckoner.Token
