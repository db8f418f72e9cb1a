import Reckoner.Proofs.Expression.Writing
import Reckoner.Proofs.Poly.Reading
import Reckoner.Proofs.Rational.Root
/-!
# Polynomials as they are shown

`Poly.parse_ownText`: a polynomial whose imaginary parts are integers is read back from its text. The text is cut at the signs
that were written between the terms; in each term the variable is found where it was written, as the only letters elsewhere
are imaginary units, and what stands before it is an expression whose value is the size of the coefficient.
-/

namespace Reckoner

open CharClass Line Rational
open Text (withoutSpaces)

/-! ## Finding a name -/

namespace Text

variable {x s t rest : Text}

/-- A name does not begin where a letter stands alone and is the unit. -/
theorem not_isPrefixOf_of_unit (name : IsName x) {c : Char}
    (alone : isPlainLetter c = true → c = 'i' ∧ ∀ d ∈ t.head?, isPlainLetter d = false) : x.isPrefixOf (c :: t) = false := by
  obtain ⟨a, ls, rfl⟩ := List.exists_cons_of_ne_nil name.1
  by_contra begins
  obtain ⟨rfl, rest⟩ := List.cons_prefix_cons.1 (List.isPrefixOf_iff_prefix.1 (Bool.not_eq_false _ ▸ begins))
  obtain ⟨rfl, next⟩ := alone (name.letters a List.mem_cons_self)
  cases ls with
  | nil => cases name.notUnit
  | cons b ls =>
    obtain ⟨tail, rfl⟩ := rest
    have letter := name.letters b (by simp)
    rw [next b rfl] at letter
    cases letter

/-- A text with no letters but units does not hold the name. -/
theorem cut?_of_loneUnits (name : IsName x) (units : LoneUnits t) : cut? x t = none := by
  induction t with
  | nil => simp [cut?, name.1]
  | cons c t ih => simp [cut?, not_isPrefixOf_of_unit name units.1, ih units.2]

theorem cut?_name (name : IsName x) (rest : Text) : cut? x (x ++ rest) = some ([], rest) := by
  obtain ⟨a, ls, rfl⟩ := List.exists_cons_of_ne_nil name.1
  simp [cut?]

/-- After a text with no letters but units, and a star, the name is found. -/
theorem cut?_star (name : IsName x) (units : LoneUnits s) (rest : Text) :
    cut? x (s ++ '*' :: (x ++ rest)) = some (s ++ ['*'], rest) := by
  induction s with
  | nil =>
    have star : x.isPrefixOf ('*' :: (x ++ rest)) = false := not_isPrefixOf_of_unit name nofun
    simp [cut?, star, cut?_name name]
  | cons c s ih =>
    have other : x.isPrefixOf (c :: (s ++ '*' :: (x ++ rest))) = false := by
      refine not_isPrefixOf_of_unit name fun letter => ⟨(units.1 letter).1, ?_⟩
      cases s with
      | nil => rintro _ ⟨⟩; rfl
      | cons d s => exact (units.1 letter).2
    rw [List.cons_append, cut?, if_neg (by simp [other]), ih units.2]
    rfl

end Text

/-- Every imaginary part in a coefficient is an integer. -/
def Coeff.IntegerImaginary : Coeff → Prop
  | .scalar z => isInteger z.im = true
  | .matrix m => ∀ i j, isInteger (m.grid.cell i j).im = true

instance : DecidablePred Coeff.IntegerImaginary
  | .scalar z => inferInstanceAs (Decidable (isInteger z.im = true))
  | .matrix m => inferInstanceAs (Decidable (∀ i j, isInteger (m.grid.cell i j).im = true))

namespace Poly

open Text (weight cut?_of_loneUnits cut?_star cut?_name)
open Token Expression

/-! ## Texts of coefficients -/

/-- Matching brackets are not cut inside others, and are closed. -/
theorem uncut_of_balanced {t : Text} (h : Line.Balanced t) (plain : ∀ c ∈ t, c ≠ '(' ∧ c ≠ ')') {depth : Int}
    (inside : 0 < depth) (last : Char) : Uncut depth last t ∧ weight t = 0 := by
  induction h generalizing depth last with
  | nil => exact ⟨trivial, rfl⟩
  | @cons c t opening closing _ ih =>
    obtain ⟨first, later⟩ := List.forall_mem_cons.1 plain
    have level : depthAfter 0 c = 0 := by simp [depthAfter, opening, closing, first]
    obtain ⟨uncut, same⟩ := ih later inside c
    refine ⟨⟨fun _ outside => by omega, ?_⟩, by simp [level, same]⟩
    rwa [Text.depthAfter_eq, level, Int.add_zero]
  | @brackets s t _ _ ihs iht =>
    have parts : (∀ c ∈ s, c ≠ '(' ∧ c ≠ ')') ∧ ∀ c ∈ t, c ≠ '(' ∧ c ≠ ')' :=
      ⟨fun c mem => plain c (by simp [mem]), fun c mem => plain c (by simp [mem])⟩
    obtain ⟨uncut, same⟩ := ihs parts.1 (show 0 < depth + 1 by omega) '['
    obtain ⟨uncut', same'⟩ := iht parts.2 inside ']'
    have level : weight ('[' :: s ++ ']' :: t) = 0 := by
      simp only [List.cons_append, Text.weight_cons, Text.weight_append, same, same']
      rfl
    refine ⟨⟨fun _ outside => by omega, ?_⟩, level⟩
    show Uncut (depth + 1) '[' (s ++ ']' :: t)
    rw [uncut_append, same]
    refine ⟨uncut, fun _ outside => by omega, ?_⟩
    have closed : depthAfter (depth + 1 + 0) ']' = depth := by simp [depthAfter]
    rwa [closed]

/-- The tokens of a text in parentheses are those of the text, between two more. -/
theorem tokenize_group {t source : Text} {us : List Token} (h : tokenize t source = .ok us) (source' : Text) :
    ∃ l r : Mark, tokenize ('(' :: t ++ [')']) source' =
      .ok (l.token .opening :: us.map (moved 1) ++ [r.token .closing]) := by
  have squeezed : Text.squeeze ('(' :: t ++ [')']) = '(' :: (Text.squeeze t ++ [')']) := by
    rw [Text.squeeze_append]
    rfl
  have within : scan source 0 0 (some .opening) (Text.squeeze t) = .ok us := scan_of_tokenize_expecting h rfl nofun
  obtain ⟨last, complete, reads⟩ := scan_append within
  have apart : Apart (Text.squeeze t) [')'] := {
    plain := by rintro _ ⟨⟩; decide
    letters := .inl (by rintro _ ⟨⟩; rfl) }
  have opening : lexeme? '(' (Text.squeeze t ++ [')']) = some (.opening, 0) := rfl
  have opens : scan source' 0 0 none ('(' :: (Text.squeeze t ++ [')'])) = (⟨.opening, ['('], 0⟩ :: ·) <$>
      scan source' (1 + 0) (1 + 0) (some .opening) (Text.squeeze t ++ [')']) := scan_step opening rfl rfl
  have closes : ∀ position, scan source' position 1 last [')'] = .ok [⟨.closing, [')'], position⟩] := by
    intro position
    have closing : lexeme? ')' [] = some (.closing, 0) := rfl
    have level : nesting source' position 1 (resolve last .closing) = .ok 0 := rfl
    rw [scan_step closing level (by simp [resolve, fits, complete]), List.drop_nil, scan]
    simp [resolve, emitted, joins, expectsOperand]
  refine ⟨⟨['('], 0⟩, ⟨[')'], 1 + (0 + (Text.squeeze t).length)⟩, ?_⟩
  simp only [tokenize, squeezed, List.isEmpty_cons, Bool.false_eq_true, if_false]
  rw [opens, reads source' 1 1 apart, closes]
  rfl

/-- Parentheses do not change the value of an expression. -/
theorem closedValue_group {t : Text} {v : Value} (h : closedValue t = .ok v) : closedValue ('(' :: t ++ [')']) = .ok v := by
  obtain ⟨form, read, run⟩ := Outcome.bind_eq_ok.1 h
  obtain ⟨us, e, w, tokens, derived, value, rfl⟩ := Scope.exists_of_run read run
  obtain ⟨l, r, tokens⟩ := tokenize_group tokens ('(' :: t ++ [')'])
  have grouped : Derives .sum (.group (e.moved 1)) (l.token .opening :: us.map (moved 1) ++ [r.token .closing]) :=
    .sum_of_atom (.group (derived.moved 1))
  refine Outcome.bind_eq_ok.2 ⟨_, Outcome.bind_eq_ok.2 ⟨_, tokens, ofTokens_derives grouped _⟩, ?_⟩
  rw [Postfix.eval, Scope.run, run_postorder]
  have same : (Expression.group (e.moved 1)).evalWith (({} : Scope).meaning (Postfix.matrixValue {}) t) = .ok w :=
    (evalWith_moved _ 1 e).trans value
  rw [evalWith_extends (Scope.extends_empty {}) (fun _ _ => id) same]
  rfl

theorem closedValue_text {z : Gaussian} (integer : isInteger z.im = true) :
    closedValue z.text = .ok (.number (.ofGaussian z)) := by
  obtain ⟨p, parsed, value⟩ := Postfix.parse_textWith renders_text z z.text
  rw [(Gaussian.reread_eq_self_iff renders_text z).2 (by simp [integer])] at value
  exact Outcome.bind_eq_ok.2 ⟨p, parsed, value _ _⟩

theorem closedValue_matrixText {m : Mat} (integers : ∀ i j, isInteger (m.grid.cell i j).im = true) :
    closedValue m.text = .ok (.matrix m) := by
  obtain ⟨p, parsed, value⟩ := Postfix.parse_matrixText m m.text
  have same : m.map (Gaussian.reread fun q => !isInteger q) = m := Mat.map_eq_self_iff.2 fun i j =>
    (Gaussian.reread_eq_self_iff renders_text _).2 (by simp [integers i j])
  rw [same] at value
  exact Outcome.bind_eq_ok.2 ⟨p, parsed, value _⟩

/-- The text of a number that is not negative ends with a digit. -/
theorem ends_of_size {fraction : Bool} {t : Text} {q : Rat} (h : Size fraction t q) :
    ∃ c, t.getLast? = some c ∧ holdsSign c = false := by
  have decimal : ∀ {t r}, IsDecimal t r → ∃ c, t.getLast? = some c ∧ holdsSign c = false := by
    intro t r digits
    have last := List.getLast?_eq_some_getLast digits.ne_nil
    exact ⟨_, last, digits.forall_mem (p := (holdsSign · = false)) (by decide) _ (List.getLast_mem digits.ne_nil)⟩
  cases h with
  | decimal digits => exact decimal digits
  | fraction _ below _ =>
    obtain ⟨c, last, ends⟩ := decimal below
    exact ⟨c, by simp [List.getLast?_cons, last], ends⟩

/-- A text that stands for a coefficient, alone or before the variable. -/
structure Factor (t : Text) (c : Coeff) : Prop where
  value : ∃ v, closedValue t = .ok v ∧ v.toCoeff? = some c
  closed : Closed t
  units : LoneUnits t
  spaces : ∀ d ∈ t, d ≠ ' '

namespace Factor

variable {z : Gaussian} {q : Rat}

/-- The text of a number by itself, if it has no signs. -/
theorem of_signless (integer : isInteger z.im = true) (signless : Gaussian.Signless z.text)
    (ends : ∃ c, z.text.getLast? = some c ∧ holdsSign c = false) : Factor z.text (.scalar z) where
  value := ⟨_, closedValue_text integer, by simp [Value.toCoeff?]⟩
  closed := .of_signless (fun c mem => ⟨(signless c mem).1, (signless c mem).2,
    Gaussian.textWith_forall_mem renders_text z (p := (depthAfter 0 · = 0)) (by decide) c mem⟩) ends
  units := loneUnits_textWith renders_text z
  spaces := Gaussian.textWith_forall_mem renders_text z (by decide)

theorem of_rational (nonnegative : 0 ≤ q) : Factor (Rational.text q) (.ofRat q) :=
  of_signless (z := .ofRat q) rfl ((size_text nonnegative).forall_mem (by decide)) (ends_of_size (size_text nonnegative))

theorem of_imaginary (positive : 0 < q) (integer : isInteger q = true) :
    Factor (Gaussian.text ⟨0, q⟩) (.scalar ⟨0, q⟩) := by
  have shown : ∃ front, Gaussian.text ⟨0, q⟩ = front ++ ['i'] ∧ Gaussian.Signless (front ++ ['i']) := by
    rw [Gaussian.text, Gaussian.textWith, if_neg positive.ne', if_pos rfl, Gaussian.imaginaryTextWith]
    split
    next => exact ⟨[], rfl, Gaussian.UnitSize.unit.signless⟩
    next =>
      rw [if_neg (by linarith)]
      exact ⟨_, rfl, (Gaussian.UnitSize.multiple (size_text positive.le)).signless⟩
  obtain ⟨front, shown, signless⟩ := shown
  exact of_signless integer (shown ▸ signless) ⟨'i', by rw [shown, List.getLast?_concat], rfl⟩

/-- The text of a number in parentheses. -/
theorem group (integer : isInteger z.im = true) : Factor ('(' :: z.text ++ [')']) (.scalar z) where
  value := ⟨_, closedValue_group (closedValue_text integer), by simp [Value.toCoeff?]⟩
  closed := by
    have plain := fun {p : Char → Prop} [DecidablePred p] => Gaussian.textWith_forall_mem renders_text z (p := p)
    obtain ⟨uncut, level⟩ := uncut_of_balanced (.of_forall (plain (by decide))) (plain (by decide)) Int.one_pos '('
    exact .enclosed (.inl rfl) (.inl rfl) uncut level
  units := .cons rfl ((loneUnits_textWith renders_text z).append (.cons rfl trivial) (by rintro _ ⟨⟩; rfl))
  spaces := List.forall_mem_cons.2 ⟨by decide, List.forall_mem_append.2
    ⟨Gaussian.textWith_forall_mem renders_text z (by decide), by simp⟩⟩

theorem of_matrix {m : Mat} (integers : ∀ i j, isInteger (m.grid.cell i j).im = true) : Factor m.text (.matrix m) where
  value := ⟨_, closedValue_matrixText integers, rfl⟩
  closed := by
    have plain : ∀ c ∈ m.text, c ≠ '(' ∧ c ≠ ')' := m.text_forall_mem (by decide)
    have inner : ∀ c ∈ m.rowsText, c ≠ '(' ∧ c ≠ ')' := fun c mem => plain c (by simp [m.text_eq, mem])
    obtain ⟨uncut, level⟩ := uncut_of_balanced m.balanced_rowsText inner Int.one_pos '['
    exact .enclosed (.inr rfl) (.inr rfl) uncut level
  units := m.loneUnits_text
  spaces := m.text_forall_mem (by decide)

end Factor

/-- A sign and a size make up a number. -/
theorem neg_abs (q : Rat) : (if decide (q < 0) then -Rational.abs q else Rational.abs q) = q := by
  by_cases negative : q < 0 <;> simp [Rational.abs, negative]

/-- A coefficient is written as a sign and a factor; a one may be left out before the variable. -/
theorem coefficientText_spec {c : Coeff} (integer : c.IntegerImaginary) (unitAllowed : Bool) :
    ∃ negative size d, coefficientText unitAllowed c = (negative, size) ∧ (if negative then d.neg else d) = c ∧
      (unitAllowed = true ∧ size = [] ∧ d = .ofRat 1 ∨ Factor size d) := by
  cases c with
  | matrix m => exact ⟨false, m.text, .matrix m, rfl, rfl, .inr (.of_matrix integer)⟩
  | scalar z =>
    obtain ⟨re, im⟩ := z
    have signed : ∀ (negative : Bool) (p q : Rat), (if negative then (Coeff.scalar ⟨p, q⟩).neg else .scalar ⟨p, q⟩) =
        .scalar ⟨if negative then -p else p, if negative then -q else q⟩ := by
      intro negative p q
      cases negative <;> rfl
    by_cases real : im = 0
    · subst real
      refine ⟨decide (re < 0), if unitAllowed && Rational.abs re == 1 then [] else Rational.text (Rational.abs re),
        .ofRat (Rational.abs re), by simp only [coefficientText, if_true], ?_, ?_⟩
      · rw [Coeff.ofRat, Gaussian.ofRat, signed, neg_abs, neg_zero, ite_self]
      · split
        next one =>
          simp only [Bool.and_eq_true, beq_iff_eq] at one
          exact .inl ⟨one.1, rfl, by rw [one.2]⟩
        next => exact .inr (.of_rational (Rational.abs_eq re ▸ abs_nonneg re))
    by_cases imaginary : re = 0
    · subst imaginary
      refine ⟨_, _, .scalar ⟨0, Rational.abs im⟩, (if_neg real).trans (if_pos rfl), ?_, .inr (.of_imaginary ?_ ?_)⟩
      · rw [signed, neg_abs, neg_zero, ite_self]
      · exact Rational.abs_eq im ▸ abs_pos.2 real
      · have whole : isInteger im = true := integer
        unfold Rational.abs
        split
        · simpa [isInteger] using whole
        · exact whole
    · exact ⟨false, _, .scalar ⟨re, im⟩, (if_neg real).trans (if_neg imaginary), rfl, .inr (.group integer)⟩

/-! ## Terms -/

variable {x size body source ds : Text} {n : Nat} {c d : Coeff} {bad : Fault}

/-- A power of the variable is the variable with an exponent. -/
theorem monomialText_eq (x : Text) (positive : n ≠ 0) : ∃ ds : Text, monomialText x n = x ++ exponentText ds ∧
    exponentValue ds = n ∧ ∀ d ∈ ds, d.isDigit = true := by
  by_cases single : n = 1
  · subst single
    exact ⟨[], by simp [monomialText, exponentText], rfl, nofun⟩
  · have digits := Text.digits_numeral n
    refine ⟨Text.numeral n, ?_, ?_, digits.2⟩
    · rw [monomialText, if_neg positive, if_neg single, exponentText, if_neg digits.1]
    · rw [exponentValue, if_neg digits.1, Text.numeralValue_numeral]

theorem readExponent_exponentText (digits : ∀ d ∈ ds, d.isDigit = true) :
    readExponent (exponentText ds) = (exponentValue ds, []) := by
  by_cases empty : ds = []
  · subst empty
    rfl
  · simp [exponentText, exponentValue, empty, readExponent, Text.spanDigits_digits ⟨empty, digits⟩]

section

variable (name : IsName x) (digits : ∀ d ∈ ds, d.isDigit = true)
include name digits

/-- A power of the variable is not cut. -/
theorem closed_power : Closed (x ++ exponentText ds) := by
  have script : ∀ d ∈ ds, isDigit d = true := fun d mem => Text.isDigit_of_isDigit (digits d mem)
  refine .of_signless (fun c mem => ?_) ?_
  · rcases power_characters name script c mem with word | rfl
    · obtain ⟨level, loose⟩ := Text.depthAfter_of_isWord word
      exact ⟨(by rintro rfl; cases loose), (by rintro rfl; cases loose), level⟩
    · decide
  · by_cases empty : ds = []
    · have last := List.getLast?_eq_some_getLast name.1
      refine ⟨_, by simpa [exponentText, empty] using last, ?_⟩
      exact (Text.depthAfter_of_isWord (isWord_of_letter (name.letters _ (List.getLast_mem name.1)))).2
    · have last := List.getLast?_eq_some_getLast empty
      refine ⟨_, by simpa [exponentText, empty, List.getLast?_cons] using congrArg (Option.getD · '^') last, ?_⟩
      exact (Text.depthAfter_of_isWord (by simp [Text.isWord, script _ (List.getLast_mem empty)])).2

omit name in
theorem loneUnits_exponentText : LoneUnits (exponentText ds) := by
  have plain : ∀ c ∈ exponentText ds, isPlainLetter c = false := by
    intro c mem
    unfold exponentText at mem
    split at mem
    · cases mem
    · rcases List.mem_cons.1 mem with rfl | digit
      · rfl
      · by_contra letter
        have other := not_isDigit_of_isPlainLetter (Bool.not_eq_false _ ▸ letter)
        rw [Text.isDigit_of_isDigit (digits c digit)] at other
        cases other
  rw [← List.append_nil (exponentText ds)]
  exact .prepend plain trivial

/-- A factor before a power of the variable is found, and read by itself. -/
theorem readBody_power (factor : size = [] ∧ d = .ofRat 1 ∨ Factor size d) (bad : Fault) : ∃ v,
    readBody bad x (if size.isEmpty then x ++ exponentText ds else size ++ '*' :: (x ++ exponentText ds)) =
      .ok (exponentValue ds, v) ∧ v.toCoeff? = some d := by
  have absent : Text.has x (exponentText ds) = false := by
    rw [Text.has, cut?_of_loneUnits name (loneUnits_exponentText digits)]
    rfl
  rcases factor with ⟨rfl, rfl⟩ | factor
  · refine ⟨.rational 1, ?_, rfl⟩
    have whole : Text.chop? '*' [] = none := rfl
    simp only [List.isEmpty_nil, if_true, readBody, cut?_name name, whole, absent, readExponent_exponentText digits]
    rfl
  · obtain ⟨v, value, coeff⟩ := factor.value
    obtain ⟨c, last, loose⟩ := factor.closed.ends
    have nonempty : size.isEmpty = false := List.isEmpty_eq_false_iff.2 factor.closed.ne_nil
    have noBar : size.getLast? ≠ some '/' := by
      rw [last]
      rintro ⟨⟩
      cases loose
    have chopped : Text.chop? '*' (size ++ ['*']) = some size := Text.chop?_eq_some.2 rfl
    refine ⟨v, ?_, coeff⟩
    simp only [nonempty, Bool.false_eq_true, if_false, readBody, cut?_star name factor.units, chopped, Option.getD_some,
      noBar, absent, readBefore, value, readExponent_exponentText digits]
    rfl

end

theorem readBody_constant (name : IsName x) (factor : Factor size d) (bad : Fault) :
    ∃ v, readBody bad x size = .ok (0, v) ∧ v.toCoeff? = some d := by
  obtain ⟨v, value, coeff⟩ := factor.value
  refine ⟨v, ?_, coeff⟩
  rw [readBody, cut?_of_loneUnits name factor.units]
  exact Outcome.bind_eq_ok.2 ⟨v, value, rfl⟩

/-- A term as it stands in a literal without spaces. -/
def signedTerm (x : Text) (t : Nat × Coeff) : SignedTerm :=
  (if (termText x t).1 then '-' else '+', withoutSpaces (termText x t).2)

/-- The text after the sign of a term, for the text of its coefficient. -/
theorem withoutSpaces_termText (spaces : ∀ c ∈ size, c ≠ ' ') (name : IsName x) (digits : ∀ d ∈ ds, d.isDigit = true) :
    withoutSpaces (if size.isEmpty then x ++ exponentText ds else size ++ ' ' :: '*' :: ' ' :: (x ++ exponentText ds)) =
      if size.isEmpty then x ++ exponentText ds else size ++ '*' :: (x ++ exponentText ds) := by
  have power : withoutSpaces (x ++ exponentText ds) = x ++ exponentText ds := by
    refine List.filter_eq_self.2 fun c mem => ?_
    rcases power_characters name (fun d mem => Text.isDigit_of_isDigit (digits d mem)) c mem with word | rfl
    · have other : c ≠ ' ' := by
        rintro rfl
        cases word
      simpa using other
    · rfl
  have kept : withoutSpaces size = size := List.filter_eq_self.2 fun c mem => bne_iff_ne.2 (spaces c mem)
  split
  · exact power
  · have parts : withoutSpaces (size ++ ' ' :: '*' :: ' ' :: (x ++ exponentText ds)) =
        withoutSpaces size ++ '*' :: withoutSpaces (x ++ exponentText ds) := List.filter_append _ _
    rw [parts, kept, power]

/-- A term is read as the number before the sign is put to it. -/
theorem readTerm_of_readBody (nonempty : body ≠ []) (read : ∀ bad, ∃ v, readBody bad x body = .ok (n, v) ∧ v.toCoeff? = some d)
    (negative : Bool) (source : Text) : readTerm x source (if negative then '-' else '+', body) =
      .ok (n, if negative then d.neg else d) := by
  obtain ⟨v, read, coeff⟩ := read (.badTerm ((if negative then '-' else '+') :: body) source)
  simp only [readTerm, List.isEmpty_eq_false_iff.2 nonempty, Bool.false_eq_true, if_false]
  refine Outcome.bind_eq_ok.2 ⟨(n, v), read, ?_⟩
  simp only [coeff]
  cases negative <;> rfl

/-- A term is cut off whole, and read as itself. -/
theorem signedTerm_spec (name : IsName x) (integer : c.IntegerImaginary) (n : Nat) :
    Closed (signedTerm x (n, c)).2 ∧ ∀ source, readTerm x source (signedTerm x (n, c)) = .ok (n, c) := by
  obtain ⟨negative, size, d, shown, value, factor⟩ := coefficientText_spec integer (!(monomialText x n).isEmpty)
  subst value
  simp only [signedTerm, termText, shown]
  by_cases constant : n = 0
  · subst constant
    have empty : (monomialText x 0).isEmpty = true := rfl
    have factor : Factor size d := factor.resolve_left (by simp [empty])
    have kept : withoutSpaces size = size := List.filter_eq_self.2 fun c mem => bne_iff_ne.2 (factor.spaces c mem)
    simp only [empty, if_true, kept]
    exact ⟨factor.closed, readTerm_of_readBody factor.closed.ne_nil (readBody_constant name factor) negative⟩
  · obtain ⟨ds, monomial, rfl, digits⟩ := monomialText_eq x constant
    have some : (x ++ exponentText ds).isEmpty = false := by simp [name.1]
    have factor : size = [] ∧ d = .ofRat 1 ∨ Factor size d := factor.imp And.right id
    have spaces : ∀ c ∈ size, c ≠ ' ' := by
      rcases factor with ⟨rfl, -⟩ | factor
      · exact nofun
      · exact factor.spaces
    simp only [monomial, some, Bool.false_eq_true, if_false]
    rw [withoutSpaces_termText spaces name digits]
    have closed : Closed (if size.isEmpty then x ++ exponentText ds else size ++ '*' :: (x ++ exponentText ds)) := by
      have power := closed_power name digits
      rcases factor with ⟨rfl, -⟩ | factor
      · exact power
      · rw [if_neg (by simpa using factor.closed.ne_nil)]
        exact factor.closed.append (by decide) rfl power
    exact ⟨closed, readTerm_of_readBody closed.ne_nil (readBody_power name digits factor) negative⟩

/-! ## Literals -/

variable {sum ts : Terms} {t : Nat × Coeff}

theorem withoutSpaces_laterTerms (x : Text) (ts : Terms) :
    withoutSpaces (laterTerms x ts) = written (ts.map (signedTerm x)) := by
  induction ts with
  | nil => rfl
  | cons t ts ih =>
    have first : laterTerms x (t :: ts) =
        ' ' :: (if (termText x t).1 then '-' else '+') :: ' ' :: (termText x t).2 ++ laterTerms x ts := rfl
    have parts : withoutSpaces (laterTerms x (t :: ts)) =
        (if (termText x t).1 then '-' else '+') :: withoutSpaces (termText x t).2 ++ withoutSpaces (laterTerms x ts) := by
      rw [first]
      cases (termText x t).1 <;> exact List.filter_append _ _
    rw [parts, ih, List.map_cons, written_cons]
    rfl

/-- A term of a lower power comes after the others. -/
theorem add_of_above (above : ∀ s ∈ sum, n < s.1) : Terms.add n c sum = .ok (sum ++ [(n, c)]) := by
  induction sum with
  | nil => rfl
  | cons s sum ih =>
    obtain ⟨first, later⟩ := List.forall_mem_cons.1 above
    rw [Terms.add, if_neg first.not_gt, if_neg first.ne', ih later]
    rfl

/-- Terms with descending powers are read one after the other. -/
theorem foldlM_addTerm (name : IsName x) (integer : ∀ t ∈ ts, t.2.IntegerImaginary) (source : Text)
    (descending : (sum ++ ts).Descending) : (ts.map (signedTerm x)).foldlM (addTerm x source) sum = .ok (sum ++ ts) := by
  induction ts generalizing sum with
  | nil =>
    rw [List.append_nil]
    rfl
  | cons t ts ih =>
    obtain ⟨first, later⟩ := List.forall_mem_cons.1 integer
    have above : ∀ s ∈ sum, t.1 < s.1 := fun s mem => (List.pairwise_append.1 descending).2.2 s mem t List.mem_cons_self
    have added : addTerm x source sum (signedTerm x t) = .ok (sum ++ [t]) :=
      Outcome.bind_eq_ok.2 ⟨t, (signedTerm_spec name first t.1).2 source, add_of_above above⟩
    have rest : (ts.map (signedTerm x)).foldlM (addTerm x source) (sum ++ [t]) = .ok (sum ++ [t] ++ ts) :=
      ih later (by simpa using descending)
    rw [List.map_cons, List.foldlM_cons]
    exact Outcome.bind_eq_ok.2 ⟨_, added, by simpa using rest⟩

/-- The text of terms with descending powers is read as these terms. -/
theorem parse_terms (name : IsName x) (t : Nat × Coeff) (ts : Terms) (integer : ∀ s ∈ t :: ts, s.2.IntegerImaginary)
    (descending : Terms.Descending (t :: ts)) :
    let (negative, body) := termText x t
    parse ((if negative then '-' :: body else body) ++ laterTerms x ts) (some x) = .ok (ofTerms x (t :: ts)) := by
  set shown := (if (termText x t).1 then '-' :: (termText x t).2 else (termText x t).2) ++ laterTerms x ts
  have cleaned : withoutSpaces shown =
      (if (termText x t).1 then '-' :: (signedTerm x t).2 else (signedTerm x t).2) ++ written (ts.map (signedTerm x)) := by
    have parts : withoutSpaces shown = withoutSpaces (if (termText x t).1 then '-' :: (termText x t).2 else (termText x t).2) ++
        withoutSpaces (laterTerms x ts) := List.filter_append _ _
    rw [parts, withoutSpaces_laterTerms]
    cases (termText x t).1 <;> rfl
  have closed : ∀ s ∈ t :: ts, Closed (signedTerm x s).2 := fun s mem => (signedTerm_spec name (integer s mem) s.1).1
  obtain ⟨first, later⟩ := List.forall_mem_cons.1 closed
  have each : ∀ term ∈ ts.map (signedTerm x), (term.1 = '+' ∨ term.1 = '-') ∧ Closed term.2 := by
    intro term mem
    obtain ⟨s, among, rfl⟩ := List.mem_map.1 mem
    refine ⟨?_, later s among⟩
    rw [signedTerm]
    cases (termText x s).1
    · exact .inl rfl
    · exact .inr rfl
  have cut : signedTerms (withoutSpaces shown) = (t :: ts).map (signedTerm x) := by
    rw [cleaned, signedTerms_closed first each]
    rfl
  have nonempty : (withoutSpaces shown).isEmpty = false := by
    rw [cleaned]
    cases (termText x t).1 <;> simp [first.ne_nil]
  have start : Terms.Descending ([] ++ t :: ts) := descending
  have fold := foldlM_addTerm name integer shown start
  rw [← cut] at fold
  show parse shown (some x) = _
  simp only [parse, nonempty, Bool.false_eq_true, if_false]
  show ((signedTerms (withoutSpaces shown)).foldlM (addTerm x shown) [] >>= fun terms => pure (ofTerms x terms)) = _
  rw [fold]
  rfl

/-- A polynomial whose imaginary parts are integers is read back from its text, in its variable. -/
theorem parse_ownText {p : Poly} (name : IsName p.var) (integer : ∀ t ∈ p.terms, t.2.IntegerImaginary) :
    parse p.text (some p.var) = .ok p := by
  rw [text]
  cases terms : p.terms with
  | nil =>
    -- The zero that is shown is a term, which a polynomial does not keep.
    have zero : ofTerms p.var [(0, .ofRat 0)] = p := ext_terms rfl terms.symm
    have read := parse_terms name (0, .ofRat 0) [] (List.forall_mem_singleton.2 rfl) (List.pairwise_singleton _ _)
    rw [zero] at read
    exact read
  | cons t ts =>
    have read := parse_terms name t ts (fun s mem => integer s (terms ▸ mem)) (terms ▸ p.descending)
    rw [← terms, ofTerms_terms] at read
    exact read

/-- Coefficients of every kind, after signs of both kinds: a sum in parentheses, a one that is left out, a matrix and a
multiple of the unit. -/
theorem parse_ownText_mixed :
    let row : Mat := ⟨1, 2, by decide, by decide, .ofFn fun _ j => if j = 0 then 1 else ⟨-1 / 2, -1⟩⟩
    let p := ofTerms ['x'] [(12, .scalar ⟨-1 / 2, 3⟩), (2, .ofRat (-1)), (1, .matrix row), (0, .scalar ⟨0, -2⟩)]
    p.text = "(-1/2+3i) * x^12 - x^2 + [[1,-1/2-i]] * x - 2i".toList ∧ IsName p.var ∧
      (∀ t ∈ p.terms, t.2.IntegerImaginary) ∧ parse p.text (some p.var) = .ok p := by
  intro row p
  have name : IsName p.var := by decide +kernel
  have integer : ∀ t ∈ p.terms, t.2.IntegerImaginary := by decide +kernel
  exact ⟨by decide +kernel, name, integer, parse_ownText name integer⟩

end Poly

end Reckoner
