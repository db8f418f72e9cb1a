import Reckoner.Proofs.Expression.Extension
import Reckoner.Proofs.Token.Reading
/-!
# Pieces of a text

How an expression, a name, a numeral and a sign are read where they stand in a text between others: an expression that is
read by itself as the same tokens further on, the others as one token.
-/

namespace Reckoner

open CharClass Line

/-! ## Numerals -/

namespace Token

theorem numberLength_digits {ds rest : Text} (digits : ∀ d ∈ ds, isDigit d = true)
    (stop : ∀ c ∈ rest.head?, isDigit c = false ∧ c ≠ '.') : numberLength (ds ++ rest) = ds.length := by
  rw [numberLength_before ds stop]
  have cut : Text.spanDigits (ds ++ []) = (ds, []) := Lists.span_append digits nofun
  rw [List.append_nil] at cut
  simp only [numberLength, cut]

end Token

/-- A run of digits of any script is read as the number that it denotes. -/
theorem Rational.parse_digits {ds : Text} (nonempty : ds ≠ []) (digits : ∀ d ∈ ds, isDigit d = true) :
    Rational.parse ds = .ok (Text.numeralValue ds) := by
  have ne : ∀ {c}, isDigit c = false → ∀ d ∈ ds, d ≠ c := by
    rintro c other d mem rfl
    rw [digits d mem] at other
    cases other
  have cleaned : Text.withoutSpaces ds = ds :=
    List.filter_eq_self.2 fun d mem => bne_iff_ne.2 (ne (by decide : isDigit ' ' = false) d mem)
  have whole : Text.cut? ['/'] ds = none := Text.cut?_eq_none (ne (by decide))
  have cut : Text.spanDigits (ds ++ []) = (ds, []) := Lists.span_append digits nofun
  rw [List.append_nil] at cut
  have unsigned : Text.readSign ds = (false, ds) := by
    unfold Text.readSign
    split
    · exact absurd rfl (ne (by decide : isDigit '-' = false) '-' List.mem_cons_self)
    · exact absurd rfl (ne (by decide : isDigit '+' = false) '+' List.mem_cons_self)
    · rfl
  have value : decimalValue ds [] = Text.numeralValue ds := by
    rw [decimalValue, List.append_nil]
    exact Rat.mkRat_one _
  have read : readDecimal ds = .ok (Text.numeralValue ds : Rat) := by
    simp [readDecimal, readDecimal?, unsigned, readUnsigned?, cut, nonempty, atEnd, value]
  simp [Rational.parse, cleaned, whole, nonempty, read]

namespace Token

variable {source t p rest : Text} {position depth : Nat} {last : Option Kind} {us : List Token}

/-! ## Expressions -/

/-- A text that goes on with an operand begins with no star. -/
theorem head?_ne_star (h : scan source position depth last t = .ok us) (expects : expectsOperand last = true) :
    t.head? ≠ some '*' := by
  intro star
  obtain ⟨s, rfl⟩ := List.head?_eq_some_iff.1 star
  obtain ⟨form, n, depth', following, found, -, fit, -⟩ := scan_cons_eq_ok h
  have operator : ∃ o, o ≠ .minus ∧ form = .operator o := by
    rcases ite_eq_iff.1 (Option.some.inj (show some _ = some _ from found)) with ⟨-, eq⟩ | ⟨-, eq⟩ <;> cases eq
    · exact ⟨.matrixTimes, nofun, rfl⟩
    · exact ⟨.times, nofun, rfl⟩
  obtain ⟨o, notMinus, rfl⟩ := operator
  have kind : resolve last (.operator o) = .operator o := by
    cases o <;> first | rfl | exact absurd rfl notMinus
  rw [kind] at fit
  simp [fits, expects] at fit

/-- What is read by itself has characters, and is read as it is without its blanks. -/
theorem scan_of_tokenize {source' : Text} (h : tokenize p source' = .ok us) :
    Text.squeeze p ≠ [] ∧ scan source' 0 0 none (Text.squeeze p) = .ok us := by
  simp only [tokenize] at h
  split at h
  · cases h
  next nonempty => exact ⟨by simpa using nonempty, h⟩

/-- A text that is read by itself is read as the same tokens wherever an operand is expected. -/
theorem scan_of_tokenize_expecting {source' : Text} (h : tokenize p source' = .ok us) (expects : expectsOperand last = true)
    (once : last = some .negate → (Text.squeeze p).head? ≠ some '-') : scan source' 0 0 last (Text.squeeze p) = .ok us := by
  obtain ⟨nonempty, read⟩ := scan_of_tokenize h
  obtain ⟨c, s, squeezed⟩ := List.exists_cons_of_ne_nil nonempty
  rw [squeezed] at once read ⊢
  exact scan_expecting rfl expects (fun negated same => once negated (by rw [same]; rfl)) read

/-- A text that is read by itself is read as the same tokens further on, where an operand is expected. -/
theorem scan_tokenized {source' : Text} (h : tokenize p source' = .ok us) (expects : expectsOperand last = true)
    (once : last = some .negate → (Text.squeeze p).head? ≠ some '-') (apart : Apart (Text.squeeze p) rest) :
    ∃ last', expectsOperand last' = false ∧ scan source position 0 last (Text.squeeze p ++ rest) =
      (us.map (moved position) ++ ·) <$> scan source (position + (Text.squeeze p).length) 0 last' rest := by
  obtain ⟨last', complete, reads⟩ := scan_append (scan_of_tokenize_expecting h expects once)
  exact ⟨last', complete, by simpa using reads source position 0 apart⟩

/-- Two minus signs in front of an operand are not read. -/
theorem head?_ne_minus_of_negate (h : scan source position depth last (t ++ rest) = .ok us) :
    last = some .negate → t.head? ≠ some '-' := by
  rintro rfl minus
  obtain ⟨s, rfl⟩ := List.head?_eq_some_iff.1 minus
  obtain ⟨form, n, depth', following, found, -, fit, -⟩ := scan_cons_eq_ok h
  cases (show lexeme? '-' (s ++ rest) = some (.operator .minus, 0) from rfl).symm.trans found
  cases fit

theorem lexeme?_times (h : t.head? ≠ some '*') : lexeme? '*' t = some (.operator .times, 0) := by
  show some (if t.head? = some '*' then _ else _) = _
  rw [if_neg h]

/-! ## Names -/

section Names

variable {x : Text} (name : IsName x)
include name

/-- A name that is not called is one token. -/
theorem scan_name (stop : BeginsRun rest) (value : rest.head? ≠ some '(') (expects : expectsOperand last = true) :
    scan source position depth last (x ++ rest) = (⟨.operand .identifier, x, position⟩ :: ·) <$>
      scan source (position + x.length) depth (some (.operand .identifier)) rest := by
  obtain ⟨c, ls, rfl⟩ := List.exists_cons_of_ne_nil name.1
  have found := lexeme?_letters name.letters name.notUnit stop
  rw [if_neg value] at found
  rw [List.cons_append, scan_lexeme found rfl rfl (by simp [resolve, joins, expects]), List.take_left, List.drop_left]
  rfl

/-- A name after an operand is multiplied by it. -/
theorem scan_name_joined (stop : BeginsRun rest) (value : rest.head? ≠ some '(') (complete : expectsOperand last = false) :
    scan source position depth last (x ++ rest) = (⟨.operator .times, ['*'], position⟩ :: ·) <$>
      scan source position depth (some (.operator .times)) (x ++ rest) := by
  obtain ⟨c, ls, rfl⟩ := List.exists_cons_of_ne_nil name.1
  have found := lexeme?_letters name.letters name.notUnit stop
  rw [if_neg value] at found
  exact scan_joined complete found

/-- A name does not begin with the unit. -/
theorem unitAhead_name (rest : Text) : unitAhead (x ++ rest) = false := by
  obtain ⟨c, ls, rfl⟩ := List.exists_cons_of_ne_nil name.1
  rw [Bool.eq_false_iff]
  intro ahead
  have alone : ls = [] := by
    cases ls with
    | nil => rfl
    | cons d ls => simp [unitAhead, name.letters d (by simp)] at ahead
  subst alone
  simp only [List.cons_append, unitAhead, Bool.and_eq_true, Bool.or_eq_true, beq_iff_eq] at ahead
  rcases ahead.1 with rfl | rfl <;> cases name.notUnit

end Names

/-! ## Numerals as tokens -/

theorem scan_digits {ds : Text} (nonempty : ds ≠ []) (digits : ∀ d ∈ ds, isDigit d = true)
    (stop : ∀ c ∈ rest.head?, isDigit c = false ∧ c ≠ '.') (notUnit : unitAhead rest = false)
    (expects : expectsOperand last = true) :
    scan source position depth last (ds ++ rest) = (⟨.operand .number, ds, position⟩ :: ·) <$>
      scan source (position + ds.length) depth (some (.operand .number)) rest := by
  obtain ⟨d, ds, rfl⟩ := List.exists_cons_of_ne_nil nonempty
  have length : numberLength (d :: (ds ++ rest)) = ds.length + 1 := numberLength_digits digits stop
  have found : lexeme? d (ds ++ rest) = some (.operand .number, ds.length) := by
    simp [lexeme?_digit (digits d List.mem_cons_self), length, notUnit]
  rw [List.cons_append, scan_lexeme found rfl rfl (by simp [resolve, joins, expects]), List.take_left, List.drop_left]
  rfl

end Token

end Reckoner
