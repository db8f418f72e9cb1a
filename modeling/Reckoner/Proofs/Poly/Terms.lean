import Reckoner.Proofs.Poly.Cutting
import Reckoner.Proofs.Poly.Products
import Reckoner.Proofs.Token.Pieces
/-!
# Reading the terms of a literal as expressions

A term is read around its variable: a factor before it, an exponent and a factor or divisor after it, each by itself. Where
the whole literal is an expression, the tokens of a term are a product with the same value (`signed_of_readBody`).
-/

namespace Reckoner

open CharClass Line Token Expression

/-! ## Parts of a term -/

namespace Text

variable {mark t before after : Text}

theorem cut?_eq_some (h : cut? mark t = some (before, after)) : t = before ++ (mark ++ after) := by
  induction t generalizing before with
  | nil =>
    simp only [cut?] at h
    split at h
    next empty =>
      cases h
      simpa using empty
    · cases h
  | cons c rest ih =>
    rw [cut?] at h
    split at h
    next found =>
      cases h
      obtain ⟨tail, eq⟩ := List.isPrefixOf_iff_prefix.1 found
      rw [← eq, List.drop_left]
      rfl
    · obtain ⟨⟨before', after'⟩, found, eq⟩ := Option.map_eq_some_iff.1 h
      cases eq
      rw [ih found, List.cons_append]

end Text

namespace Poly

open Text (squeeze squeeze_append weight)

/-- How an exponent is written: a power sign with digits, or nothing for one. -/
def exponentText (ds : Text) : Text := if ds = [] then [] else '^' :: ds

/-- What an exponent is worth. -/
def exponentValue (ds : Text) : Nat := if ds = [] then 1 else Text.numeralValue ds

theorem readExponent_spec (t : Text) : ∃ ds rest, readExponent t = (exponentValue ds, rest) ∧
    t = exponentText ds ++ rest ∧ ∀ d ∈ ds, isDigit d = true := by
  unfold readExponent
  split
  next rest =>
    obtain ⟨ds, after, cut, split, digits⟩ := Text.spanDigits_cut rest
    rw [cut]
    by_cases empty : ds = []
    · subst empty
      exact ⟨[], '^' :: rest, rfl, rfl, nofun⟩
    · exact ⟨ds, after, by simp [empty, exponentValue], by simp [empty, split, exponentText], digits⟩
  · exact ⟨[], t, rfl, rfl, nofun⟩

/-- The operators that stand inside no parentheses in the text of an expression. -/
def operatorsOf (t : Text) : List Operator :=
  match tokenize t t with
  | .ok ts => outside 0 ts
  | .error _ => []

/-- Whether what follows a power of the variable may be worked out first, as it is read, where it is applied to the power one
operator after the other: no remainder is taken in a factor, and a divisor is no product. -/
def groupsAlike : Text → Bool
  | '*' :: rest => !(operatorsOf rest).contains .modulo
  | '/' :: rest => (operatorsOf rest).all (!·.multiplicative)
  | _ => true

/-- Whether this is so of what follows the variable in a term. -/
def groupsAfter (x body : Text) : Bool :=
  match Text.cut? x body with
  | some (_, after) => groupsAlike (readExponent after).2
  | none => true

variable {x p t body after source rest : Text} {position : Nat} {last : Option Token.Kind} {us ts : List Token} {v w : Value}
  {c d : Coeff} {n : Nat} {sign : Char} {bad : Fault}

theorem readAfter_eq_ok (h : readAfter bad v after = .ok w) : after = [] ∧ w = v ∨
    ∃ q u, closedValue q = .ok u ∧ (after = '*' :: q ∧ v.mul u = .ok w ∨ after = '/' :: q ∧ v.divide u = .ok w) := by
  cases after with
  | nil => exact .inl ⟨rfl, (Except.ok.inj h).symm⟩
  | cons c q =>
    rw [readAfter] at h
    split at h
    · cases h
    split at h
    next star =>
      obtain ⟨u, value, product⟩ := Outcome.bind_eq_ok.1 h
      exact .inr ⟨q, u, value, .inl ⟨by rw [star], product⟩⟩
    split at h
    next slash =>
      obtain ⟨u, value, quotient⟩ := Outcome.bind_eq_ok.1 h
      exact .inr ⟨q, u, value, .inr ⟨by rw [slash], quotient⟩⟩
    · cases h

/-- A term has no variable, or it stands around a power of it. -/
theorem readBody_eq_ok (h : readBody bad x body = .ok (n, v)) : n = 0 ∧ closedValue body = .ok v ∨
    ∃ factor star ds after u, body = factor ++ (star ++ (x ++ exponentText ds ++ after)) ∧ (star = [] ∨ star = ['*']) ∧
      (∀ d ∈ ds, isDigit d = true) ∧ n = exponentValue ds ∧ readBefore factor = .ok u ∧ readAfter bad u after = .ok v ∧
        groupsAfter x body = groupsAlike after := by
  unfold readBody at h
  split at h
  next =>
    obtain ⟨v', value, eq⟩ := Outcome.bind_eq_ok.1 h
    cases eq
    exact .inl ⟨rfl, value⟩
  next before after cut =>
    obtain ⟨star, split, starred⟩ := Text.chop?_star before
    obtain ⟨ds, after', exponent, split', digits⟩ := readExponent_spec after
    have parts := Text.cut?_eq_some cut
    rw [split, split'] at parts
    simp only [exponent] at h
    split at h
    · cases h
    obtain ⟨u, first, h⟩ := Outcome.bind_eq_ok.1 h
    obtain ⟨v', second, eq⟩ := Outcome.bind_eq_ok.1 h
    cases eq
    exact .inr ⟨_, star, ds, after', u, by simpa using parts, starred, digits, rfl, first, second,
      by simp only [groupsAfter, cut, exponent]⟩

/-! ## Closed products -/

/-- A text with a value, no sign in which is one between terms, is a product. -/
theorem product_of_closedValue (h : closedValue p = .ok v) (uncut : Uncut 0 sign p) : ∃ us e w,
    tokenize p p = .ok us ∧ Derives .product e us ∧ e.evalWith (closedMeaning p) = .ok w ∧ w.simplify = v ∧
      weight p = 0 := by
  obtain ⟨form, read, h⟩ := Outcome.bind_eq_ok.1 h
  obtain ⟨us, e, w, tokens, derived, value, simple⟩ := Scope.exists_of_run read h
  have balanced := balanced_of_evalWith derived value fun _ _ => Postfix.weight_of_matrixValue
  have noSum := outside_of_uncut (scan_of_tokenize tokens).2 balanced (uncut.squeeze id) nofun
  exact ⟨us, e, w, tokens, derived.product_of_outside noSum, value, simple, weight_of_tokenize tokens balanced⟩

/-! ## What is read in front of a text -/

/-- The text begins with an operator of sums or products, if with anything. -/
def AtOperator (t : Text) : Prop := ∀ c ∈ t.head?, c = '+' ∨ c = '-' ∨ c = '*' ∨ c = '/'

theorem AtOperator.apart (h : AtOperator rest) (t : Text) : Apart t rest where
  plain c mem := by rcases h c mem with rfl | rfl | rfl | rfl <;> decide
  letters := .inl fun c mem => by rcases h c mem with rfl | rfl | rfl | rfl <;> rfl

theorem AtOperator.beginsRun (h : AtOperator rest) : BeginsRun rest := fun c mem => by
  rcases h c mem with rfl | rfl | rfl | rfl <;> rfl

theorem AtOperator.notCalled (h : AtOperator rest) : rest.head? ≠ some '(' := fun called => by
  rcases h '(' called with eq | eq | eq | eq <;> cases eq

/-- Reading `t` in front of `rest` gives the tokens `us` first, and ends after an operand. -/
def Yields (source : Text) (position : Nat) (last : Option Token.Kind) (t : Text) (us : List Token) (rest : Text) : Prop :=
  ∃ position' last', expectsOperand last' = false ∧
    scan source position 0 last (t ++ rest) = (us ++ ·) <$> scan source position' 0 last' rest

theorem Yields.nil (complete : expectsOperand last = false) : Yields source position last [] [] rest :=
  ⟨position, last, complete, by simp⟩

/-- What is read after a sign. -/
theorem Yields.cons {tok : Token} {position' : Nat} {last' : Option Token.Kind} {s : Text}
    (first : scan source position 0 last (s ++ (t ++ rest)) = (tok :: ·) <$> scan source position' 0 last' (t ++ rest))
    (later : Yields source position' last' t us rest) : Yields source position last (s ++ t) (tok :: us) rest := by
  obtain ⟨position'', last'', complete, run⟩ := later
  refine ⟨position'', last'', complete, ?_⟩
  rw [List.append_assoc, first, run, Functor.map_map]
  rfl

/-- What is read of two texts one after the other, where what the second one gives has to do with the first one. -/
theorem Yields.append {s : Text} {P : List Token → Prop} (first : Yields source position last s us (t ++ rest))
    (later : ∀ position' last', expectsOperand last' = false →
      ∃ vs, Yields source position' last' t vs rest ∧ P (us ++ vs)) :
    ∃ vs, Yields source position last (s ++ t) vs rest ∧ P vs := by
  obtain ⟨position', last', complete, run⟩ := first
  obtain ⟨vs, ⟨position'', last'', complete', run'⟩, holds⟩ := later position' last' complete
  refine ⟨us ++ vs, ⟨position'', last'', complete', ?_⟩, holds⟩
  rw [List.append_assoc, run, run', Functor.map_map]
  simp only [List.append_assoc]

/-- The tokens that are read begin with those. -/
theorem Yields.eq_append (h : Yields source position last t us rest)
    (read : scan source position 0 last (t ++ rest) = .ok ts) :
    ∃ position' last' ts', expectsOperand last' = false ∧ scan source position' 0 last' rest = .ok ts' ∧ ts = us ++ ts' := by
  obtain ⟨position', last', complete, run⟩ := h
  rw [run] at read
  obtain ⟨ts', later, rfl⟩ := Outcome.map_eq_ok.1 read
  exact ⟨position', last', ts', complete, later, rfl⟩

theorem head?_append_ne_star (h : tokenize p p = .ok us) (rest : Text) : (squeeze p ++ rest).head? ≠ some '*' := by
  obtain ⟨nonempty, read⟩ := scan_of_tokenize h
  have first := head?_ne_star read rfl
  cases squeezed : squeeze p with
  | nil => exact absurd squeezed nonempty
  | cons c s => rwa [squeezed] at first

theorem yields_tokenized (h : tokenize p p = .ok us) (expects : expectsOperand last = true)
    (once : last = some .negate → (squeeze p).head? ≠ some '-') (apart : Apart (squeeze p) rest) :
    Yields source position last (squeeze p) (us.map (moved position)) rest := by
  obtain ⟨last', complete, run⟩ := scan_tokenized h expects once apart
  exact ⟨_, last', complete, run⟩

/-! ## The variable -/

theorem value_identifier {k : Nat}
    (h : (Expression.operand .identifier ⟨x, k⟩).evalWith (variableMeaning x source) = .ok v) :
    v = .polynomial (identity x) := by
  have found : (variableScope x).value? x = some (.polynomial (identity x)) := by
    simp [Scope.value?, variableScope]
  simp only [evalWith, variableMeaning, Scope.meaning, Scope.operandValue, found] at h
  exact (Except.ok.inj h).symm

theorem value_power {ds : Text} {m : Mark} {k l : Nat} (nonempty : ds ≠ []) (digits : ∀ d ∈ ds, isDigit d = true)
    (h : (Expression.binary .power m (.operand .identifier ⟨x, k⟩) (.operand .number ⟨ds, l⟩)).evalWith
      (variableMeaning x source) = .ok v) : IsMonomial x (Text.numeralValue ds) (.ofRat 1) v := by
  obtain ⟨base, first, h⟩ := Outcome.bind_eq_ok.1 h
  obtain ⟨exponent, second, h⟩ := Outcome.bind_eq_ok.1 h
  cases value_identifier first
  obtain ⟨q, read, rfl⟩ := Outcome.map_eq_ok.1 second
  rw [Rational.parse_digits nonempty digits] at read
  cases read
  exact Except.ok.inj (h.symm.trans (Value.identity_power x _))

section Variable

variable (name : IsName x)
include name

/-- The variable with its exponent is a factor, and worth its power. -/
theorem yields_power (source : Text) (position : Nat) {ds : Text} (digits : ∀ d ∈ ds, isDigit d = true)
    (next : AtOperator rest) (expects : expectsOperand last = true) :
    ∃ us e, Yields source position last (x ++ exponentText ds) us rest ∧ Derives .unary e us ∧
      ∀ source v, e.evalWith (variableMeaning x source) = .ok v → IsMonomial x (exponentValue ds) (.ofRat 1) v := by
  by_cases empty : ds = []
  · subst empty
    refine ⟨[⟨.operand .identifier, x, position⟩], .operand .identifier ⟨x, position⟩, ?_, .ofPower (.ofAtom .operand), ?_⟩
    · exact ⟨_, _, rfl, by
        rw [exponentText, if_pos rfl, List.append_nil]
        exact scan_name name next.beginsRun next.notCalled expects⟩
    · intro source v run
      exact value_identifier run
  · refine ⟨[⟨.operand .identifier, x, position⟩, ⟨.operator .power, ['^'], position + x.length⟩,
      ⟨.operand .number, ds, position + x.length + 1⟩], .binary .power ⟨['^'], position + x.length⟩
        (.operand .identifier ⟨x, position⟩) (.operand .number ⟨ds, position + x.length + 1⟩), ?_, ?_, ?_⟩
    · have first : scan source position 0 last (x ++ ('^' :: ds ++ rest)) = _ :=
        scan_name name (by rintro _ ⟨⟩; rfl) nofun expects
      have second : scan source (position + x.length) 0 (some (.operand .identifier)) (['^'] ++ (ds ++ rest)) = _ :=
        scan_operator (o := .power) rfl rfl
      have apart := next.apart []
      have third : scan source (position + x.length + 1) 0 (some (.operator .power)) (ds ++ rest) = _ :=
        scan_digits empty digits (fun c mem => ⟨(apart.plain c mem).1, (apart.plain c mem).2.1⟩) apart.notUnit rfl
      have number : Yields source (position + x.length + 1) (some (.operator .power)) ds
          [⟨.operand .number, ds, position + x.length + 1⟩] rest := ⟨_, _, rfl, third⟩
      rw [exponentText, if_neg empty]
      exact Yields.cons first (Yields.cons second number)
    · exact .ofPower (.power (m := ⟨['^'], position + x.length⟩) .operand (.ofPower (.ofAtom .operand)))
    · intro source v run
      rw [exponentValue, if_neg empty]
      exact value_power empty digits run

end Variable

/-! ## After the variable -/

/-- A factor or divisor after a power of the variable groups as it is read. -/
theorem signed_of_readAfter (h : Signed x (IsMonomial x n) c us) (read : readAfter bad v after = .ok w)
    (hv : v.toCoeff? = some c) (hw : w.toCoeff? = some d) (uncut : Uncut 0 sign after)
    (alike : groupsAlike after = true) (next : AtOperator rest) (complete : expectsOperand last = false) :
    ∃ vs, Yields source position last (squeeze after) vs rest ∧ Signed x (IsMonomial x n) d (us ++ vs) := by
  rcases readAfter_eq_ok read with ⟨rfl, rfl⟩ | ⟨q, u, value, kind⟩
  · cases hv.symm.trans hw
    exact ⟨[], .nil complete, by rwa [List.append_nil]⟩
  obtain ⟨sign, uncut⟩ : ∃ sign, Uncut 0 sign q := by rcases kind with ⟨rfl, -⟩ | ⟨rfl, -⟩ <;> exact ⟨_, uncut.2⟩
  obtain ⟨vs, e, w', tokens, derived, closed, rfl, -⟩ := product_of_closedValue value uncut
  obtain ⟨b, hb⟩ := exists_toCoeff?_of_closed closed
  have factor : ∀ o, Yields source (position + 1) (some (.operator o)) (squeeze q) (vs.map (moved (position + 1))) rest :=
    fun o => yields_tokenized tokens rfl nofun (next.apart _)
  rw [← evalWith_moved _ (position + 1)] at closed
  rcases kind with ⟨rfl, product⟩ | ⟨rfl, quotient⟩
  · obtain ⟨d', result, whole⟩ := Value.toCoeff?_mul hv (Value.toCoeff?_simplify hb) product
    cases hw.symm.trans result
    refine ⟨_, Yields.cons (s := ['*']) (scan_operator (lexeme?_times (head?_append_ne_star tokens rest)) complete)
      (factor .times), h.times_closed (m := ⟨['*'], position⟩) (derived.moved _) ?_ closed hb whole⟩
    rw [outside_moved]
    simpa [groupsAlike, operatorsOf, tokens] using alike
  · obtain ⟨d', result, whole⟩ := Value.toCoeff?_divide hv (Value.toCoeff?_simplify hb) quotient
    cases hw.symm.trans result
    have single : Derives .unary e vs :=
      derived.unary_of_outside (by simpa [groupsAlike, operatorsOf, tokens] using alike)
    exact ⟨_, Yields.cons (s := ['/']) (scan_operator rfl complete) (factor .divide),
      h.apply_closed (o := .divide) (m := ⟨['/'], position⟩) rfl nofun (single.moved _) closed hb whole⟩

/-! ## Before the variable -/

/-- The tokens have no names but `x`. -/
def OnlyName (x : Text) (ts : List Token) : Prop :=
  ∀ tok ∈ ts, (tok.kind = .operand .identifier → tok.value = x) ∧ tok.kind ≠ .function

section Variable

variable (name : IsName x)
include name

/-- A factor right before the variable ends with no letter: the letter would be a part of the name. -/
theorem endsRun_of_only (tokens : tokenize p p = .ok us) (expects : expectsOperand last = true)
    (stop : BeginsRun rest) (read : scan source position 0 last (squeeze p ++ (x ++ rest)) = .ok ts) (only : OnlyName x ts)
    (once : last = some .negate → (squeeze p).head? ≠ some '-') : EndsRun (squeeze p) := by
  intro b final
  by_contra letter
  have ends : ∃ b ∈ (squeeze p).getLast?, isPlainLetter b = true := ⟨b, final, by simpa using letter⟩
  obtain ⟨tok, mem, called, longer⟩ :=
    scan_straddle (scan_of_tokenize_expecting tokens expects once) ends name.1 name.letters stop read
  rcases called with identifier | function
  · rw [(only tok mem).1 identifier] at longer
    exact Nat.lt_irrefl _ longer
  · exact (only tok mem).2 function

omit name in
theorem atOperator_exponent (ds : Text) (next : AtOperator rest) :
    BeginsRun (exponentText ds ++ rest) ∧ (exponentText ds ++ rest).head? ≠ some '(' := by
  by_cases empty : ds = []
  · rw [exponentText, if_pos empty]
    exact ⟨next.beginsRun, next.notCalled⟩
  · rw [exponentText, if_neg empty]
    exact ⟨by rintro _ ⟨⟩; rfl, nofun⟩

/-- A factor is read as by itself in front of the variable and of the star between them. -/
theorem apart_of_only {star tail : Text} (starred : star = [] ∨ star = ['*']) (tokens : tokenize p p = .ok us)
    (expects : expectsOperand last = true) (stop : BeginsRun tail)
    (read : scan source position 0 last (squeeze p ++ (star ++ (x ++ tail))) = .ok ts) (only : OnlyName x ts)
    (once : last = some .negate → (squeeze p).head? ≠ some '-') : Apart (squeeze p) (star ++ (x ++ tail)) := by
  rcases starred with rfl | rfl
  · obtain ⟨a, ls, eq⟩ := List.exists_cons_of_ne_nil name.1
    have letter : isPlainLetter a = true := name.letters a (by simp [eq])
    exact {
      plain := by
        rw [eq]
        rintro _ ⟨⟩
        exact plain_of_letter letter
      letters := .inr ⟨endsRun_of_only name tokens expects stop read only once, unitAhead_name name tail⟩ }
  · exact { plain := by rintro _ ⟨⟩; decide, letters := .inl (by rintro _ ⟨⟩; rfl) }

/-- The star between a factor and the variable may be left out. -/
theorem yields_star (position : Nat) {star tail : Text} (starred : star = [] ∨ star = ['*'])
    (stop : BeginsRun (tail ++ rest)) (value : (tail ++ rest).head? ≠ some '(') (complete : expectsOperand last = false) :
    ∃ position', ∀ us, Yields source position' (some (.operator .times)) (x ++ tail) us rest →
      Yields source position last (star ++ (x ++ tail)) (⟨.operator .times, ['*'], position⟩ :: us) rest := by
  rcases starred with rfl | rfl
  · refine ⟨position, fun us later => Yields.cons (s := []) ?_ later⟩
    simpa using scan_name_joined name stop value complete
  · have letter : (x ++ tail ++ rest).head? ≠ some '*' := by
      obtain ⟨a, ls, eq⟩ := List.exists_cons_of_ne_nil name.1
      have plain := name.letters a (by simp [eq])
      rw [eq]
      rintro ⟨⟩
      cases plain
    exact ⟨position + 1, fun us later => Yields.cons (s := ['*']) (scan_operator (lexeme?_times letter) complete) later⟩

/-- A factor and a power of the variable are a product, worth the coefficient times the power. -/
theorem signed_of_readBefore {ds factor star : Text} (read : readBefore factor = .ok v)
    (starred : star = [] ∨ star = ['*']) (uncut : Uncut 0 sign factor) (digits : ∀ d ∈ ds, isDigit d = true)
    (next : AtOperator rest) (expects : expectsOperand last = true)
    (whole : scan source position 0 last (squeeze factor ++ (star ++ (x ++ (exponentText ds ++ rest)))) = .ok ts)
    (only : OnlyName x ts) : ∃ c, v.toCoeff? = some c ∧ weight factor = 0 ∧
      ∃ us, Yields source position last (squeeze factor ++ (star ++ (x ++ exponentText ds))) us rest ∧
        Signed x (IsMonomial x (exponentValue ds)) c us := by
  obtain ⟨stop, value⟩ := atOperator_exponent ds next
  unfold readBefore at read
  split at read
  next empty =>
    obtain rfl := List.isEmpty_iff.1 empty
    cases read
    rcases starred with rfl | rfl
    · obtain ⟨us, e, yields, derived, power⟩ := yields_power name source position digits next expects
      exact ⟨.ofRat 1, rfl, rfl, us, yields, .of_variable derived power⟩
    · -- There is nothing before the star that it could multiply.
      exact absurd rfl (head?_ne_star whole expects)
  next nonempty =>
    obtain ⟨us, e, w, tokens, derived, closed, rfl, level⟩ := product_of_closedValue read uncut
    obtain ⟨c, coeff⟩ := exists_toCoeff?_of_closed closed
    have once := head?_ne_minus_of_negate whole
    have apart := apart_of_only name starred tokens expects stop whole only once
    refine ⟨c, Value.toCoeff?_simplify coeff, level, ?_⟩
    refine Yields.append (yields_tokenized tokens expects once (by simpa using apart)) fun position' last' complete => ?_
    obtain ⟨position'', starts⟩ := yields_star name position' starred stop value complete
    obtain ⟨vs, f, yields, derivedPower, power⟩ := yields_power name source position'' digits next
      (show expectsOperand (some (.operator .times)) = true from rfl)
    rw [← evalWith_moved _ position] at closed
    exact ⟨_, starts vs yields,
      (Signed.of_closed (derived.moved position) closed coeff).variable_after derivedPower power ⟨['*'], position'⟩⟩

/-! ## Terms -/

/-- The value is the sum of these terms, as a polynomial. -/
structure Worth (x : Text) (terms : Terms) (v : Value) : Prop where
  isOver : v.Over x
  toPoly : v.toPoly x = ofTerms x terms

omit name in
theorem IsCoeff.worth (h : IsCoeff c v) : Worth x [(0, c)] v where
  isOver := by
    obtain ⟨y, rfl, -⟩ | ⟨m, rfl, -⟩ := Value.toCoeff?_eq_some h
    · exact Value.over_number y
    · exact Value.over_matrix m
  toPoly := Value.toPoly_of_toCoeff? h

omit name in
theorem IsMonomial.worth (h : IsMonomial x n c v) : Worth x [(n, c)] v := by
  subst h
  exact ⟨Value.over_polynomial rfl, rfl⟩

omit name in
theorem atOperator_of_readAfter (read : readAfter bad v after = .ok w) (next : AtOperator rest) :
    AtOperator (squeeze after ++ rest) := by
  rcases readAfter_eq_ok read with ⟨rfl, -⟩ | ⟨q, u, -, ⟨rfl, -⟩ | ⟨rfl, -⟩⟩
  · exact next
  · rintro _ ⟨⟩
    exact .inr (.inr (.inl rfl))
  · rintro _ ⟨⟩
    exact .inr (.inr (.inr rfl))

/-- The characters of the variable and its exponent. -/
theorem power_characters {ds : Text} (digits : ∀ d ∈ ds, isDigit d = true) :
    ∀ c ∈ x ++ exponentText ds, Text.isWord c = true ∨ c = '^' := by
  intro c mem
  rcases List.mem_append.1 mem with letter | mem
  · exact .inl (isWord_of_letter (name.letters c letter))
  · unfold exponentText at mem
    split at mem
    · cases mem
    · rcases List.mem_cons.1 mem with rfl | digit
      · exact .inr rfl
      · exact .inl (by simp [Text.isWord, digits c digit])

/-- No blank and no bracket is in the variable and its exponent. -/
theorem squeeze_power {ds : Text} (digits : ∀ d ∈ ds, isDigit d = true) :
    squeeze (x ++ exponentText ds) = x ++ exponentText ds ∧ weight (x ++ exponentText ds) = 0 := by
  constructor
  · refine List.filter_eq_self.2 fun c mem => ?_
    rcases power_characters name digits c mem with word | rfl
    · simp [Text.isBlank_of_isWord word]
    · decide
  · refine Text.weight_eq_zero fun c mem => ?_
    rcases power_characters name digits c mem with word | rfl
    · exact (Text.depthAfter_of_isWord word).1
    · rfl

/-- A term of an expression is a product, and worth what the term is read as. -/
theorem signed_of_readBody (read : readBody bad x body = .ok (n, v)) (coeff : v.toCoeff? = some c)
    (uncut : Uncut 0 sign body) (alike : groupsAfter x body = true) (next : AtOperator rest)
    (expects : expectsOperand last = true) (whole : scan source position 0 last (squeeze body ++ rest) = .ok ts)
    (only : OnlyName x ts) :
    ∃ us, Yields source position last (squeeze body) us rest ∧ Signed x (fun c => Worth x [(n, c)]) c us := by
  rcases readBody_eq_ok read with
    ⟨rfl, value⟩ | ⟨factor, star, ds, after, u, rfl, starred, digits, rfl, first, second, groups⟩
  · obtain ⟨us, e, w, tokens, derived, closed, rfl, -⟩ := product_of_closedValue value uncut
    obtain ⟨c', hw⟩ := exists_toCoeff?_of_closed closed
    cases coeff.symm.trans (Value.toCoeff?_simplify hw)
    refine ⟨_, yields_tokenized tokens expects (head?_ne_minus_of_negate whole) (next.apart _), ?_⟩
    rw [← evalWith_moved _ position] at closed
    exact (Signed.of_closed (derived.moved position) closed hw).mono fun c v => IsCoeff.worth
  · obtain ⟨kept, level⟩ := squeeze_power name digits
    have star_level : weight star = 0 := by rcases starred with rfl | rfl <;> rfl
    have squeezed : squeeze (factor ++ (star ++ (x ++ exponentText ds ++ after))) =
        squeeze factor ++ (star ++ (x ++ exponentText ds)) ++ squeeze after := by
      have star_kept : squeeze star = star := by rcases starred with rfl | rfl <;> rfl
      rw [squeeze_append, squeeze_append, squeeze_append, star_kept, kept]
      simp
    rw [squeezed] at whole ⊢
    rw [groups] at alike
    obtain ⟨before, later⟩ := uncut_append.1 uncut
    obtain ⟨a, first_coeff, factor_level, us, yields, signed⟩ :=
      signed_of_readBefore name first starred before digits (atOperator_of_readAfter second next) expects
        (by simpa using whole) only
    rw [uncut_append, uncut_append, factor_level, star_level, level] at later
    exact yields.append fun position' last' complete =>
      (signed_of_readAfter signed second first_coeff coeff later.2.2 alike next complete).imp fun vs ⟨yields, signed⟩ =>
        ⟨yields, signed.mono fun c v => IsMonomial.worth⟩

end Variable

end Poly

end Reckoner
