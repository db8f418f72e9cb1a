import Reckoner.Proofs.Expression.Evaluation
import Reckoner.Proofs.Expression.Parsing
import Reckoner.Proofs.Token.Joining
/-!
# The names of tokens, in order

Names are found twice: as runs of letters in a text, and as tokens when the text is read. Where the text has no matrix
literal, whose names are in its own text, both find the same names in the same order (`tokenize_names`), and the postfix
form keeps the order of those that stand for values (`Expression.Derives.names`).
-/

namespace Reckoner

open CharClass Line

/-! ## Runs of letters -/

namespace Line

variable {s t run rest : Text}

/-- The names in a text without blanks, each with whether it is called. -/
def namesIn (t : Text) : List (Text × Bool) :=
  ((letterRuns t).filter fun run => !isUnit run.1).map fun run => (run.1, run.2.head? == some '(')

/-- Characters that are no letters hold no names. -/
theorem namesIn_append (plain : ∀ c ∈ s, isPlainLetter c = false) (t : Text) : namesIn (s ++ t) = namesIn t := by
  induction s with
  | nil => rfl
  | cons c s ih =>
    obtain ⟨first, later⟩ := List.forall_mem_cons.1 plain
    rw [← ih later, List.cons_append, namesIn, letterRuns, if_neg (by simp [first])]
    rfl

/-- A whole run of letters is the first name, unless it is the unit. -/
theorem namesIn_run (nonempty : run ≠ []) (letters : ∀ c ∈ run, isPlainLetter c = true) (ends : BeginsRun rest) :
    namesIn (run ++ rest) = if isUnit run then namesIn rest else (run, rest.head? == some '(') :: namesIn rest := by
  obtain ⟨c, ls, rfl⟩ := List.exists_cons_of_ne_nil nonempty
  obtain ⟨letter, all⟩ := List.forall_mem_cons.1 letters
  obtain ⟨taken, left⟩ := takeWhile_letters all ends
  rw [List.cons_append, namesIn, letterRuns, if_pos letter, taken, left]
  cases unit : isUnit (c :: ls) <;> simp [namesIn, unit]

theorem namesIn_unitAhead {c : Char} (ahead : Token.unitAhead (c :: rest) = true) : namesIn (c :: rest) = namesIn rest := by
  have unit : isUnit [c] = true := by
    simp only [Token.unitAhead, Bool.and_eq_true] at ahead
    simpa [isUnit] using ahead.1
  have letter : isPlainLetter c = true := by
    rcases Bool.or_eq_true_iff.1 unit with h | h
    all_goals
      simp only [beq_iff_eq, List.cons.injEq, and_true] at h
      subst h
      decide
  have whole := namesIn_run (List.cons_ne_nil c []) (List.forall_mem_singleton.2 letter) (Token.beginsRun_of_unitAhead ahead)
  rwa [unit, if_pos rfl] at whole

end Line

namespace Token

variable {c : Char} {rest t source : Text} {form : Kind} {n position depth : Nat} {last : Option Kind} {ts : List Token}

/-- The name that a token holds, with whether it is called. -/
def name? (t : Token) : Option (Text × Bool) :=
  match t.kind with
  | .operand .identifier => some (t.value, false)
  | .function => some (t.value, true)
  | _ => none

theorem filterMap_name?_emitted (last : Option Kind) (t : Token) : (emitted last t).filterMap name? = (name? t).toList := by
  have single : [t].filterMap name? = (name? t).toList := by cases h : name? t <;> simp [h]
  unfold emitted
  split
  · rw [List.filterMap_cons_none rfl, single]
  · exact single

theorem name?_eq_called {t : Token} {name : Text} : name? t = some (name, true) ↔ t.kind = .function ∧ t.value = name := by
  obtain ⟨kind, value, position⟩ := t
  cases kind with
  | operand o => cases o <;> simp [name?]
  | _ => simp [name?]

/-- The names that stand for values, read off the tokens or off their names. -/
theorem map_value_filter (ts : List Token) : (ts.filter (·.kind == .operand .identifier)).map (·.value) =
    ((ts.filterMap name?).filter fun n => !n.2).map (·.1) := by
  induction ts with
  | nil => rfl
  | cons t ts ih =>
    obtain ⟨kind, value, position⟩ := t
    cases kind with
    | operand o => cases o <;> simpa [name?, List.filterMap_cons] using ih
    | _ => simpa [name?, List.filterMap_cons] using ih

theorem name?_eq_none {t : Token} (value : t.kind ≠ .operand .identifier) (plain : t.kind ≠ .function) : name? t = none := by
  unfold name?
  split
  next kind => exact absurd kind value
  next kind => exact absurd kind plain
  next => rfl

/-- The names in a text are the name of its first lexeme, if it has one, and those in what follows. -/
theorem namesIn_of_lexeme? (found : lexeme? c rest = some (form, n)) (noBracket : c ≠ '[') (last : Option Kind)
    (position : Nat) : namesIn (c :: rest) =
      (name? ⟨resolve last form, c :: rest.take n, position⟩).toList ++ namesIn (rest.drop n) := by
  have whole : namesIn (c :: rest) = namesIn (c :: rest.take n ++ rest.drop n) := by
    rw [List.cons_append, List.take_append_drop]
  cases lexeme_of_lexeme? found with
  | matrix bracket _ => exact absurd bracket noBracket
  | imaginary digit ahead =>
    have number := namesIn_append (numberLength_letters (c :: rest)) ((c :: rest).drop (numberLength (c :: rest)))
    rw [List.take_append_drop] at number
    cases tail : (c :: rest).drop (numberLength (c :: rest)) with
    | nil =>
      rw [tail] at ahead
      cases ahead
    | cons u more =>
      rw [tail] at ahead number
      have next : rest.drop (numberLength (c :: rest)) = more := by
        rw [← List.drop_succ_cons (a := c), ← List.tail_drop, tail, List.tail_cons]
      rw [number, next]
      exact namesIn_unitAhead ahead
  | number digit =>
    rw [whole]
    refine namesIn_append ?_ _
    rw [← List.take_succ_cons, Nat.sub_add_cancel (numberLength_pos digit rest)]
    exact numberLength_letters (c :: rest)
  | unit ahead => exact namesIn_unitAhead ahead
  | @called ls ms split letters stop named paren =>
    rw [split, ← List.cons_append, namesIn_run (List.cons_ne_nil c ls) letters stop, named]
    simp [name?, resolve, paren]
  | @name ls ms split letters stop named other =>
    rw [split, ← List.cons_append, namesIn_run (List.cons_ne_nil c ls) letters stop, named]
    simp [name?, resolve, other]
  | mark plain _ noOperand noCall =>
    have noValue : resolve last form ≠ .operand .identifier := fun kind => noOperand _ (resolve_eq kind (by decide) (by decide))
    have noFunction : resolve last form ≠ .function := fun kind => noCall (resolve_eq_function kind)
    rw [whole, namesIn_append plain, name?_eq_none noValue noFunction]
    rfl

/-- The tokens of a text without matrix literals hold its names, in order. -/
theorem scan_names {source : Text} {position depth : Nat} {last : Option Kind} {t : Text} {ts : List Token}
    (h : scan source position depth last t = .ok ts) (noBracket : '[' ∉ t) : ts.filterMap name? = namesIn t := by
  match t with
  | [] =>
    obtain ⟨-, -, rfl⟩ := scan_nil_eq_ok h
    simp [namesIn, letterRuns]
  | c :: rest =>
    obtain ⟨form, n, depth', following, found, -, -, read, rfl⟩ := scan_cons_eq_ok h
    rw [List.mem_cons, not_or] at noBracket
    rw [List.filterMap_append, filterMap_name?_emitted, scan_names read fun mem => noBracket.2 (List.mem_of_mem_drop mem),
      namesIn_of_lexeme? found (Ne.symm noBracket.1) last position]
termination_by t.length
decreasing_by simp only [List.length_drop, List.length_cons]; omega

theorem tokenize_names (h : tokenize t source = .ok ts) (noBracket : '[' ∉ t) : ts.filterMap name? = names t := by
  simp only [tokenize] at h
  split at h
  · cases h
  · exact scan_names h fun mem => noBracket (List.mem_filter.1 mem).1

end Token

/-! ## Postfix order -/

/-- Operands keep their order. -/
theorem Expression.Derives.filter_operands {l : Level} {e : Expression} {ts : List Token} (h : Derives l e ts)
    {p : Token → Bool} (operands : ∀ t, p t = true → ∃ o, t.kind = .operand o) :
    e.postorder.filter p = ts.filter p := by
  have other : ∀ {m : Mark} {k : Token.Kind}, (∀ o, k ≠ .operand o) → p (m.token k) = false := by
    intro m k noOperand
    by_contra kept
    obtain ⟨o, kind⟩ := operands _ (Bool.not_eq_false _ ▸ kept)
    exact noOperand o kind
  induction h with
  | sum _ _ _ ihl ihr | product _ _ _ ihl ihr | power _ _ ihl ihr => simp [postorder, ihl, ihr, other]
  | ofProduct _ ih | ofUnary _ ih | ofPower _ ih | ofAtom _ ih => exact ih
  | negate _ ih => simp [postorder, ih, other]
  | operand => rfl
  | group _ ih => simp [postorder, ih, other]
  | call _ ih => simp [postorder, ih, other]

/-- Where a text has no matrix literal, the names of its postfix form are those found in it: the ones that stand for values
in the same order, and the same ones that are called. -/
theorem Expression.Derives.names {l : Level} {e : Expression} {ts : List Token} {t source : Text} (h : Derives l e ts)
    (read : Token.tokenize t source = .ok ts) (noBracket : '[' ∉ t) :
    Token.identifiers e.postorder = Line.variableNames t ∧
      ∀ name, name ∈ Token.functionNames e.postorder ↔ name ∈ Line.functionNames t := by
  have found := Token.tokenize_names read noBracket
  constructor
  · have kept := h.filter_operands (p := (·.kind == .operand .identifier)) fun t kind => ⟨_, by simpa using kind⟩
    rw [Token.identifiers, kept, Token.map_value_filter, found]
    rfl
  · intro name
    rw [Line.mem_functionNames, ← found, Token.functionNames, Text.mem_distinct, List.mem_map, List.mem_filterMap]
    constructor
    · rintro ⟨tok, mem, value⟩
      obtain ⟨mem, kind⟩ := List.mem_filter.1 mem
      exact ⟨tok, mem_of_mem_postorder h mem, Token.name?_eq_called.2 ⟨by simpa using kind, value⟩⟩
    · rintro ⟨tok, mem, called⟩
      obtain ⟨kind, value⟩ := Token.name?_eq_called.1 called
      have standing := mem_postorder_of_mem h mem (by simp [kind]) (by simp [kind])
      exact ⟨tok, List.mem_filter.2 ⟨standing, by simp [kind]⟩, value⟩

end Reckoner
