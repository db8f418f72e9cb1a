import Reckoner.Proofs.Expression.Conversion
import Reckoner.Proofs.Gaussian.Field
import Reckoner.Proofs.Mat.Reading
/-!
# Texts of values

A text that is read as a phrase of the grammar, wherever it stands, has the value of that phrase. Such texts are put
together from operands with signs and fraction bars between them, as the texts of numbers are. Main statement: a shown
number is read as the fraction or the decimal number that it shows; but after a fraction the imaginary unit belongs to
the denominator alone.
-/

namespace Reckoner.Expression

open Token

/-! ## Phrases -/

/-- A text that is read as a phrase with a value, where an operand is expected that no minus sign stands in front of.
The value does not depend on the scope. -/
def Written (l : Level) (t : Text) (v : Value) : Prop :=
  ∀ position, ∃ e us kind, Derives l e us ∧ expectsOperand (some kind) = false ∧
    (∀ readMatrix (scope : Scope) source, e.evalWith (scope.meaning readMatrix source) = .ok v) ∧
    ∀ {source : Text} {depth : Nat} {last : Option Kind} {rest : Text}, expectsOperand last = true →
      last ≠ some .negate → Delimited rest →
        scan source position depth last (t ++ rest) =
          (us ++ ·) <$> scan source (position + t.length) depth (some kind) rest

/-- A text that is read as one operand with a value. -/
def WrittenOperand (o : Operand) (t : Text) (v : Value) : Prop :=
  LexesAs t o ∧ ∀ readMatrix (scope : Scope) source, scope.operandValue readMatrix source o t = .ok v

variable {l : Level} {o : Operand} {s t : Text} {v w r : Value}

theorem Written.mono {l' : Level} (h : Written l t v) (up : ∀ {e us}, Derives l e us → Derives l' e us) :
    Written l' t v := fun position => by
  obtain ⟨e, us, kind, derived, rest⟩ := h position
  exact ⟨e, us, kind, up derived, rest⟩

theorem Written.sum (h : Written .product t v) : Written .sum t v := h.mono .ofProduct

theorem Written.product (h : Written .unary t v) : Written .product t v := h.mono .ofUnary

namespace WrittenOperand

/-- An operand by itself. -/
theorem written (h : WrittenOperand o t v) : Written .unary t v := fun position => by
  refine ⟨.operand o ⟨t, position⟩, _, .operand o, .ofPower (.ofAtom .operand), rfl, h.2, ?_⟩
  intro source depth last rest expects _ delimited
  exact scan_operand h.1 expects delimited

/-- An operand with a minus sign in front. -/
theorem negated (h : WrittenOperand o t v) : Written .unary ('-' :: t) v.neg := fun position => by
  refine ⟨.negate ⟨['-'], position⟩ (.operand o ⟨t, position + 1⟩), _, .operand o,
    .negate (.ofPower (.ofAtom .operand)), rfl, fun readMatrix scope source => ?_, ?_⟩
  · exact Outcome.bind_eq_ok.2 ⟨v, h.2 readMatrix scope source, rfl⟩
  · intro source depth last rest expects once delimited
    rw [List.cons_append, scan_negate expects once, scan_operand h.1 rfl delimited, List.length_cons, Nat.add_assoc,
      Nat.add_comm 1]
    simp only [Functor.map_map, Mark.token_mk]
    rfl

end WrittenOperand

/-- A phrase, an operator and another phrase. -/
theorem Written.binary {l' l'' : Level} {c : Char} {o : Operator} (hs : Written l s v) (ht : Written l' t w)
    (sign : c = '+' ∨ c = '-' ∨ c = '/') (found : ∀ rest, lexeme? c rest = some (.operator o, 0))
    (join : ∀ {m e f us vs}, Derives l e us → Derives l' f vs →
      Derives l'' (.binary o m e f) (us ++ m.token (.operator o) :: vs))
    (value : o.apply v w = .ok r) : Written l'' (s ++ c :: t) r := fun position => by
  obtain ⟨e, us, kind, derived, complete, evaluates, reads⟩ := hs position
  obtain ⟨f, vs, kind', derived', complete', evaluates', reads'⟩ := ht (position + s.length + 1)
  refine ⟨.binary o ⟨[c], position + s.length⟩ e f, _, kind', join derived derived', complete', ?_, ?_⟩
  · intro readMatrix scope source
    exact Outcome.bind_eq_ok.2 ⟨v, evaluates readMatrix scope source,
      Outcome.bind_eq_ok.2 ⟨w, evaluates' readMatrix scope source, value⟩⟩
  · intro source depth last rest expects once delimited
    have again : expectsOperand (some (.operator o)) = true := rfl
    rw [List.append_assoc, List.cons_append, reads expects once (delimited_cons _ sign), scan_operator (found _) complete,
      reads' again (by simp) delimited, List.length_append, List.length_cons, Nat.add_assoc _ s.length,
      Nat.add_assoc _ _ t.length, Nat.add_assoc s.length, Nat.add_comm 1]
    simp only [Functor.map_map, Mark.token_mk, List.append_assoc, List.cons_append]

theorem Written.quotient (hs : Written .product s v) (ht : WrittenOperand o t w) (value : v.divide w = .ok r) :
    Written .product (s ++ '/' :: t) r :=
  hs.binary (o := .divide) ht.written (by simp) (fun _ => rfl) (.product rfl) value

theorem Written.plus (hs : Written .sum s v) (ht : Written .product t w) (value : v.add w = .ok r) :
    Written .sum (s ++ '+' :: t) r :=
  hs.binary (o := .plus) ht (by simp) (fun _ => rfl) (.sum rfl) value

theorem Written.minus (hs : Written .sum s v) (ht : Written .product t w) (value : v.sub w = .ok r) :
    Written .sum (s ++ '-' :: t) r :=
  hs.binary (o := .minus) ht (by simp) (fun _ => rfl) (.sum rfl) value

/-! ## Operands -/

open Rational

theorem writtenOperand_number {q : Rat} (h : IsDecimal t q) : WrittenOperand .number t (.rational q) :=
  ⟨lexesAs_number h, fun readMatrix scope source => by rw [Scope.operandValue, h.parse]; rfl⟩

theorem writtenOperand_imaginary {q : Rat} (h : IsDecimal t q) :
    WrittenOperand .imaginary (t ++ ['i']) (.complex ⟨0, q⟩) :=
  ⟨lexesAs_imaginary h, fun readMatrix scope source => by rw [Scope.operandValue, Gaussian.parse_imaginary h]; rfl⟩

theorem writtenOperand_unit : WrittenOperand .imaginary ['i'] (.complex ⟨0, 1⟩) :=
  ⟨lexesAs_unit, fun readMatrix scope source => by rw [Scope.operandValue, Gaussian.parse_unit]; rfl⟩

/-! ## Fractions -/

theorem divide_rational (p : Rat) {q : Rat} (nonzero : q ≠ 0) :
    (Value.rational p).divide (.rational q) = .ok (.rational (p / q)) := by
  show ((Rational.divide p q).map Number.rational).map Value.number = _
  rw [Rational.divide, if_neg nonzero]
  rfl

theorem divide_imaginary (p : Rat) {q : Rat} (nonzero : q ≠ 0) :
    (Value.rational p).divide (.complex ⟨0, q⟩) = .ok (.complex ⟨0, -(p / q)⟩) := by
  have unit : (⟨0, q⟩ : Gaussian) ≠ 0 := fun zero => nonzero (congrArg Gaussian.im zero)
  have quotient : Gaussian.ofRat p / ⟨0, q⟩ = ⟨0, -(p / q)⟩ := by
    rw [div_eq_iff unit]
    ext
    · simp [div_mul_cancel₀ p nonzero]
    · simp
  show ((Gaussian.divide (.ofRat p) ⟨0, q⟩).map Number.complex).map Value.number = _
  rw [Gaussian.divide, if_neg unit, quotient]
  rfl

theorem neg_imaginary (q : Rat) : (Value.complex ⟨0, q⟩).neg = .complex ⟨0, -q⟩ := by
  show Value.complex ⟨-0, -q⟩ = _
  rw [neg_zero]

/-- The text of a rational number has its value. -/
theorem written_shows {fraction : Bool} {q : Rat} (h : Shows fraction t q) : Written .product t (.rational q) := by
  obtain ⟨size, r, size_r, ⟨rfl, rfl⟩ | ⟨rfl, rfl⟩⟩ := h
  · cases size_r with
    | decimal digits => exact (writtenOperand_number digits).written.product
    | fraction above below nonzero =>
      exact (writtenOperand_number above).written.product.quotient (writtenOperand_number below)
        (divide_rational _ nonzero)
  · cases size_r with
    | decimal digits => exact (writtenOperand_number digits).negated.product
    | fraction above below nonzero =>
      rw [← neg_div]
      exact (writtenOperand_number above).negated.product.quotient (writtenOperand_number below)
        (divide_rational _ nonzero)

/-- The text of a multiple of the imaginary unit. After a fraction the unit belongs to the denominator, so that the
value is the opposite one. -/
theorem written_imaginary {fraction : Bool} {r : Rat} (h : Size fraction t r) :
    Written .product (t ++ ['i']) (.complex ⟨0, if fraction then -r else r⟩) ∧
      Written .product ('-' :: (t ++ ['i'])) (.complex ⟨0, -if fraction then -r else r⟩) := by
  cases h with
  | decimal digits =>
    have operand := writtenOperand_imaginary digits
    exact ⟨operand.written.product, neg_imaginary r ▸ operand.negated.product⟩
  | @fraction s t p q above below nonzero =>
    -- The denominator and the unit are one operand, which the bar then divides by.
    have denominator := writtenOperand_imaginary below
    have negated : (Value.rational p).neg.divide (.complex ⟨0, q⟩) = .ok (.complex ⟨0, - -(p / q)⟩) := by
      rw [← neg_div]
      exact divide_imaginary (-p) nonzero
    rw [List.append_assoc, List.cons_append]
    exact ⟨(writtenOperand_number above).written.product.quotient denominator (divide_imaginary p nonzero),
      (writtenOperand_number above).negated.product.quotient denominator negated⟩

/-! ## Numbers -/

variable {render : Rat → Text} {fraction : Rat → Bool}

theorem written_imaginaryText (h : Renders render fraction) (q : Rat) :
    ∃ body y, Written .product body (.complex ⟨0, y⟩) ∧ Written .product ('-' :: body) (.complex ⟨0, -y⟩) ∧
      body.head? ≠ some '-' ∧
        (Gaussian.imaginaryTextWith render q = body ∧ (if fraction q then -q else q) = y ∨
          Gaussian.imaginaryTextWith render q = '-' :: body ∧ (if fraction q then -q else q) = -y) := by
  by_cases one : q = 1
  · subst one
    refine ⟨['i'], 1, writtenOperand_unit.written.product, neg_imaginary 1 ▸ writtenOperand_unit.negated.product,
      by decide, .inl ⟨rfl, ?_⟩⟩
    rw [h.integer 1 rfl]
    rfl
  by_cases minus : q = -1
  · subst minus
    refine ⟨['i'], 1, writtenOperand_unit.written.product, neg_imaginary 1 ▸ writtenOperand_unit.negated.product,
      by decide, .inr ⟨rfl, ?_⟩⟩
    rw [h.integer (-1) rfl]
    rfl
  obtain ⟨size, r, size_r, shown⟩ := h.shows q
  obtain ⟨positive, negative⟩ := written_imaginary size_r
  refine ⟨_, _, positive, negative, ?_, ?_⟩
  · obtain ⟨c, rest, rfl, digit⟩ := size_r.head_isDigit
    rintro ⟨⟩
    cases digit
  · rw [Gaussian.imaginaryTextWith, if_neg one, if_neg minus]
    rcases shown with ⟨text, rfl⟩ | ⟨text, rfl⟩
    · exact .inl ⟨by rw [text], rfl⟩
    · refine .inr ⟨by rw [text]; rfl, ?_⟩
      split <;> rfl

/-- The text of a number is read as the number, with the imaginary part negated if that is shown as a fraction. -/
theorem written_textWith (h : Renders render fraction) (z : Gaussian) :
    ∃ w, Written .sum (z.textWith render) w ∧
      w.simplify = .number (.ofGaussian (z.reread fraction)) := by
  obtain ⟨re, im⟩ := z
  by_cases real : im = 0
  · subst real
    refine ⟨.rational re, ?_, ?_⟩
    · rw [Gaussian.textWith, if_pos rfl]
      exact (written_shows (h.shows re)).sum
    · rw [Gaussian.reread, h.integer 0 rfl]
      rfl
  · have parts : Gaussian.reread fraction ⟨re, im⟩ = ⟨re, if fraction im then -im else im⟩ := by
      rw [Gaussian.reread]
      split <;> rfl
    -- The sign in front of the imaginary part is the operator between the parts, unless the real part is left out.
    obtain ⟨body, y, plus, minus, unsigned, shown⟩ := written_imaginaryText h im
    simp only [parts, Gaussian.textWith, if_neg real]
    generalize (if fraction im then -im else im) = value at shown
    refine ⟨.complex ⟨re, value⟩, ?_, rfl⟩
    rcases shown with ⟨text, rfl⟩ | ⟨text, rfl⟩
    · rw [text]
      split
      next zero => exact zero ▸ plus.sum
      next =>
        refine (written_shows (h.shows re)).sum.plus plus ?_
        show Except.ok (Value.complex ⟨re + 0, 0 + value⟩) = _
        rw [add_zero, zero_add]
    · rw [text]
      split
      next zero => exact zero ▸ minus.sum
      next =>
        rw [if_pos (by rfl)]
        refine (written_shows (h.shows re)).sum.minus plus ?_
        show Except.ok (Value.complex ⟨re - 0, 0 - y⟩) = _
        rw [sub_zero, zero_sub]

/-! ## Expressions -/

/-- A text whose tokens, without its blanks, make up a phrase is the expression of that phrase. -/
theorem parse_of_scan {source : Text} {e : Expression} {us : List Token} (squeezed : Text.squeeze t = s)
    (scanned : scan source 0 0 none s = .ok us) (derived : Derives .sum e us) :
    Postfix.parse t source = .ok ⟨e.postorder, source⟩ := by
  have tokens : tokenize t source = .ok us := by
    rw [tokenize, squeezed]
    cases s with
    | nil => rw [scan] at scanned; cases scanned
    | cons c s => exact scanned
  rw [Postfix.parse, tokens]
  exact ofTokens_derives derived source

/-- A text without blanks that is read as a phrase is an expression with the value of the phrase. -/
theorem Written.run (h : Written .sum t v) (squeezed : Text.squeeze t = t) (source : Text) :
    ∃ p, Postfix.parse t source = .ok p ∧
      ∀ readMatrix (scope : Scope), scope.run readMatrix p = .ok v.simplify := by
  obtain ⟨e, us, kind, derived, complete, evaluates, reads⟩ := h 0
  have scanned : scan source 0 0 none t = .ok us := by
    have phrase : scan source 0 0 none (t ++ []) = (us ++ ·) <$> scan source (0 + t.length) 0 (some kind) [] :=
      reads rfl nofun delimited_nil
    rw [List.append_nil] at phrase
    rw [phrase, scan]
    simp [complete]
  refine ⟨⟨e.postorder, source⟩, parse_of_scan squeezed scanned derived, fun readMatrix scope => ?_⟩
  rw [Scope.run, e.run_postorder, evaluates]
  rfl

end Reckoner.Expression

namespace Reckoner

namespace Postfix

open Expression Rational

/-- The text of a number is an expression, whose value is the number as it is read back. -/
theorem parse_textWith {render : Rat → Text} {fraction : Rat → Bool} (h : Renders render fraction) (z : Gaussian)
    (source : Text) :
    ∃ p, parse (z.textWith render) source = .ok p ∧
      ∀ readMatrix (scope : Scope), scope.run readMatrix p = .ok (.number (.ofGaussian (z.reread fraction))) := by
  obtain ⟨w, written, value⟩ := written_textWith h z
  rw [← value]
  exact written.run (Line.squeeze_textWith h z) source

/-! ## Matrices -/

theorem entryValue_text (scope : Scope) (z : Gaussian) :
    entryValue scope z.text = .ok (.number (.ofGaussian (z.reread fun q => !isInteger q))) := by
  obtain ⟨p, parsed, value⟩ := parse_textWith renders_text z z.text
  exact Outcome.bind_eq_ok.2 ⟨p, parsed, value _ scope⟩

/-- Numbers make up the matrix that their rows do. -/
theorem matrixOf_numbers {rows : List (List Number)} {m : Mat}
    (h : Mat.ofRows (rows.map (·.map Number.toGaussian)) = .ok m) :
    matrixOf (rows.map (·.map .number)) = .ok (.matrix m) := by
  refine Outcome.bind_eq_ok.2 ⟨rows.map (·.map Number.toGaussian), ?_, ?_⟩
  · rw [List.mapM_map]
    refine Lists.mapM_eq_ok fun row _ => ?_
    simp only [Function.comp_apply, List.mapM_map]
    refine Lists.mapM_eq_ok fun x _ => ?_
    simp only [Function.comp_apply, Value.simplify, Value.toNumber?, Number.simplify, Number.toGaussian_ofGaussian]
    rfl
  · rw [h]
    rfl

/-- The text of a matrix is the literal of the matrix with every cell as it is read back. -/
theorem matrixValue_text (scope : Scope) (m : Mat) :
    matrixValue scope m.text = .ok (.matrix (m.map (Gaussian.reread fun q => !isInteger q))) := by
  set reread := Gaussian.reread fun q => !isInteger q
  set numbers := m.rows.map (·.map fun z => Number.ofGaussian (reread z)) with reads
  have cells : Mat.ofRows (numbers.map (·.map Number.toGaussian)) = .ok (m.map reread) := by
    have rows : numbers.map (·.map Number.toGaussian) = (m.map reread).rows := by simp [reads, m.rows_map]
    rw [rows, Mat.ofRows_rows]
  have read := Mat.readRows_text (entryValue_text scope) m
  have values : m.rows.map (·.map fun z => Value.number (.ofGaussian (reread z))) = numbers.map (·.map .number) := by
    simp [reads]
  rw [values] at read
  exact Outcome.bind_eq_ok.2 ⟨_, read, matrixOf_numbers cells⟩

/-- Matching brackets are an expression, whose value is the one of the matrix literal without its blanks. -/
theorem parse_enclosed {t inner : Text} (balanced : Line.Balanced inner) (squeezed : Text.squeeze t = '[' :: inner ++ [']'])
    (source : Text) : ∃ p, parse t source = .ok p ∧
      ∀ scope : Scope, p.eval scope = (matrixValue scope ('[' :: inner ++ [']'])).map Value.simplify := by
  set literal := '[' :: inner ++ [']'] with enclosed
  have scanned : Token.scan source 0 0 none literal = .ok [⟨.operand .matrix, literal, 0⟩] := by
    have operand : Token.scan source 0 0 none (literal ++ []) =
        (⟨.operand .matrix, literal, 0⟩ :: ·) <$> Token.scan source (0 + literal.length) 0 (some (.operand .matrix)) [] :=
      Token.scan_operand (Mat.lexesAs_enclosed balanced) rfl Token.delimited_nil
    rw [List.append_nil] at operand
    rw [operand, Token.scan]
    rfl
  have derived : Derives .sum (.operand .matrix ⟨literal, 0⟩) [⟨.operand .matrix, literal, 0⟩] := .sum_of_atom .operand
  refine ⟨_, parse_of_scan squeezed scanned derived, fun scope => ?_⟩
  rw [Postfix.eval, Scope.run, run_postorder]
  show (matrixValue scope literal >>= fun v => .ok v.simplify) = _
  cases matrixValue scope literal <;> rfl

/-- The text of a matrix is an expression, whose value is the matrix with every cell as it is read back. -/
theorem parse_matrixText (m : Mat) (source : Text) :
    ∃ p, parse m.text source = .ok p ∧
      ∀ scope : Scope, p.eval scope = .ok (.matrix (m.map (Gaussian.reread fun q => !isInteger q))) := by
  obtain ⟨p, parsed, value⟩ := parse_enclosed m.balanced_rowsText m.squeeze_text source
  refine ⟨p, parsed, fun scope => ?_⟩
  rw [value, ← m.text_eq, matrixValue_text]
  rfl

end Postfix

end Reckoner
