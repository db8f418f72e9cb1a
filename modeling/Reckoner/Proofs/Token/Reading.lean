import Reckoner.Proofs.Rational.Reading
import Reckoner.Proofs.Token.Placement
/-!
# Reading the tokens of shown numbers

Decimal numbers, with or without the imaginary unit after them, and the unit by itself are read as one token where
nothing or a sign or a fraction bar follows; so are the signs and the bar between them.
-/

namespace Reckoner.Token

open CharClass Rational Text

/-! ## Lexemes -/

/-- What follows a shown number: nothing, a sign or a fraction bar. -/
def Delimited (rest : Text) : Prop := ∀ c ∈ rest.head?, c = '+' ∨ c = '-' ∨ c = '/'

theorem delimited_nil : Delimited [] := nofun

theorem delimited_cons {c : Char} (rest : Text) (h : c = '+' ∨ c = '-' ∨ c = '/') : Delimited (c :: rest) := by
  rintro _ ⟨⟩
  exact h

theorem Delimited.notUnit {rest : Text} (h : Delimited rest) : unitAhead rest = false := by
  cases rest with
  | nil => rfl
  | cons c rest => rcases h c rfl with rfl | rfl | rfl <;> rfl

theorem Delimited.unit {rest : Text} (h : Delimited rest) : unitAhead ('i' :: rest) = true := by
  cases rest with
  | nil => rfl
  | cons c rest => rcases h c rfl with rfl | rfl | rfl <;> rfl

/-- A text that is read as one operand, whatever delimits it. -/
def LexesAs (t : Text) (o : Operand) : Prop :=
  ∃ c tail, t = c :: tail ∧ ∀ rest, Delimited rest → lexeme? c (tail ++ rest) = some (.operand o, tail.length)

theorem numberLength_append {t : Text} {q : Rat} (h : IsDecimal t q) {rest : Text}
    (stop : ∀ c ∈ rest.head?, isDigit c = false ∧ c ≠ '.') : numberLength (t ++ rest) = t.length := by
  have ends : ∀ c ∈ rest.head?, isDigit c = false := fun c hc => (stop c hc).1
  cases h with
  | whole digits =>
    rw [numberLength, spanDigits_append digits.2 ends]
    cases rest with
    | nil => rfl
    | cons c rest => simp [(stop c rfl).2]
  | @places s t first second =>
    rw [numberLength, List.append_assoc, List.cons_append, spanDigits_append first.2 (by rintro _ ⟨⟩; decide)]
    simp only [spanDigits_append second.2 ends, List.isEmpty_eq_false_iff.2 second.1, List.length_append,
      List.length_cons]
    simp [Nat.add_assoc, Nat.add_comm 1]

theorem lexesAs_number {t : Text} {q : Rat} (h : IsDecimal t q) : LexesAs t .number := by
  obtain ⟨c, tail, rfl, digit⟩ := h.head_isDigit
  refine ⟨c, tail, rfl, fun rest delimited => ?_⟩
  have length : numberLength (c :: (tail ++ rest)) = (c :: tail).length := numberLength_append h fun d hd => by
    rcases delimited d hd with rfl | rfl | rfl <;> decide
  simp [lexeme?_digit (isDigit_of_isDigit digit), length, delimited.notUnit]

theorem lexesAs_imaginary {t : Text} {q : Rat} (h : IsDecimal t q) : LexesAs (t ++ ['i']) .imaginary := by
  obtain ⟨c, tail, rfl, digit⟩ := h.head_isDigit
  refine ⟨c, tail ++ ['i'], rfl, fun rest delimited => ?_⟩
  rw [List.append_assoc, List.singleton_append]
  have length : numberLength (c :: (tail ++ 'i' :: rest)) = (c :: tail).length :=
    numberLength_append h (by rintro _ ⟨⟩; decide)
  simp [lexeme?_digit (isDigit_of_isDigit digit), length, delimited.unit]

theorem lexesAs_unit : LexesAs ['i'] .imaginary := by
  refine ⟨'i', [], rfl, fun rest delimited => ?_⟩
  rw [lexeme?, if_neg (by decide), if_neg (by decide), List.nil_append, if_pos delimited.unit]
  rfl

/-! ## Scanning -/

variable {source : Text} {position depth : Nat} {last : Option Kind} {rest : Text}

/-- A lexeme that fits where it stands, is no parenthesis and follows no operand is one token. -/
theorem scan_lexeme {c : Char} {form : Kind} {n : Nat} (found : lexeme? c rest = some (form, n))
    (level : nesting source position depth (resolve last form) = .ok depth)
    (fit : fits last (resolve last form) = true) (apart : joins last (resolve last form) = false) :
    scan source position depth last (c :: rest) =
      (⟨resolve last form, c :: rest.take n, position⟩ :: ·) <$>
        scan source (position + n + 1) depth (some (resolve last form)) (rest.drop n) := by
  rw [scan, found]
  simp only [level, fit, apart, Bool.not_true, Bool.false_eq_true, if_false]
  rfl

theorem scan_operand {t : Text} {o : Operand} (h : LexesAs t o) (expects : expectsOperand last = true)
    (delimited : Delimited rest) :
    scan source position depth last (t ++ rest) =
      (⟨.operand o, t, position⟩ :: ·) <$> scan source (position + t.length) depth (some (.operand o)) rest := by
  obtain ⟨c, tail, rfl, lexes⟩ := h
  rw [List.cons_append, scan_lexeme (lexes rest delimited) rfl rfl (by simp [resolve, joins, expects]),
    List.take_left, List.drop_left]
  rfl

/-- A minus sign in front of its operand. -/
theorem scan_negate (expects : expectsOperand last = true) (once : last ≠ some .negate) :
    scan source position depth last ('-' :: rest) =
      (⟨.negate, ['-'], position⟩ :: ·) <$> scan source (position + 1) depth (some .negate) rest := by
  have found : lexeme? '-' rest = some (.operator .minus, 0) := rfl
  have kind : resolve last (.operator .minus) = .negate := if_pos expects
  rw [scan_lexeme found (by rw [kind]; rfl) (by simp [kind, fits, once]) (by rw [kind]; rfl), kind]
  rfl

/-- A sign between two operands. -/
theorem scan_operator {c : Char} {o : Operator} (found : lexeme? c rest = some (.operator o, 0))
    (complete : expectsOperand last = false) :
    scan source position depth last (c :: rest) =
      (⟨.operator o, [c], position⟩ :: ·) <$> scan source (position + 1) depth (some (.operator o)) rest := by
  have kind : resolve last (.operator o) = .operator o := by cases o <;> simp [resolve, complete]
  rw [scan_lexeme found (by rw [kind]; rfl) (by simp [kind, fits, complete]) (by rw [kind]; rfl), kind]
  rfl

end Reckoner.Token
