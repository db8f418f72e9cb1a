import Reckoner.Proofs.Poly.Terms
/-!
# Literals as expressions

A literal is read as terms, or as an expression in which the variable stands for itself. Where both ways give a result it is
the same one, but for matrices of zeros, of which a polynomial keeps no term (`parse_same_eval`).
-/

namespace Reckoner.Poly

open Line Token Expression
open Text (squeeze squeeze_append)

variable {x t source : Text} {position : Nat} {last : Option Token.Kind} {us vs ts : List Token} {v w r : Value} {c : Coeff}
  {n : Nat} {sum total : Terms} {terms : List SignedTerm}

/-! ## Sums -/

theorem Worth.add (hv : Worth x sum v) (hw : Worth x [(n, c)] w) (descending : sum.Descending)
    (added : Terms.add n c sum = .ok total) (h : v.add w = .ok r) : Worth x total r where
  isOver := hv.isOver.add hw.isOver h
  toPoly := by
    have result := Value.toPoly_add hv.isOver hw.isOver h
    rw [hv.toPoly, hw.toPoly] at result
    exact Except.ok.inj (result.symm.trans (ofTerms_add descending added))

theorem Worth.sub (hv : Worth x sum v) (hw : Worth x [(n, c)] w) (descending : sum.Descending)
    (added : Terms.add n c.neg sum = .ok total) (h : v.sub w = .ok r) : Worth x total r where
  isOver := hv.isOver.sub hw.isOver h
  toPoly := by
    have result := Value.toPoly_sub hv.isOver hw.isOver h
    rw [hv.toPoly, hw.toPoly] at result
    exact Except.ok.inj (result.symm.trans ((congrArg _ (monomial_neg x n c)).trans (ofTerms_add descending added)))

/-- The tokens are an expression whose value is the sum of these terms. -/
def Sums (x : Text) (sum : Terms) (us : List Token) : Prop :=
  ∃ e, Derives .sum e us ∧ ∀ source w, e.evalWith (variableMeaning x source) = .ok w → Worth x sum w

namespace Sums

theorem add (h : Sums x sum us) (signed : Signed x (fun c => Worth x [(n, c)]) c vs) (descending : sum.Descending)
    (added : Terms.add n c sum = .ok total) (m : Mark) : Sums x total (us ++ m.token (.operator .plus) :: vs) := by
  obtain ⟨e, left, worth⟩ := h
  obtain ⟨f, right, worth'⟩ := signed.plain
  refine ⟨.binary .plus m e f, .sum rfl left right, fun source r run => ?_⟩
  obtain ⟨v, first, run⟩ := Outcome.bind_eq_ok.1 run
  obtain ⟨w, second, run⟩ := Outcome.bind_eq_ok.1 run
  exact (worth source v first).add (worth' source w second) descending added run

theorem sub (h : Sums x sum us) (signed : Signed x (fun c => Worth x [(n, c)]) c vs) (descending : sum.Descending)
    (added : Terms.add n c.neg sum = .ok total) (m : Mark) : Sums x total (us ++ m.token (.operator .minus) :: vs) := by
  obtain ⟨e, left, worth⟩ := h
  obtain ⟨f, right, worth'⟩ := signed.plain
  refine ⟨.binary .minus m e f, .sum rfl left right, fun source r run => ?_⟩
  obtain ⟨v, first, run⟩ := Outcome.bind_eq_ok.1 run
  obtain ⟨w, second, run⟩ := Outcome.bind_eq_ok.1 run
  exact (worth source v first).sub (worth' source w second) descending added run

end Sums

/-! ## Terms -/

/-- Reading one more term. -/
def addTerm (x source : Text) (sum : Terms) (term : SignedTerm) : Outcome Terms := do
  let (power, c) ← readTerm x source term
  Terms.add power c sum

theorem addTerm_eq_ok {sign : Char} {body : Text} (h : addTerm x source sum (sign, body) = .ok total) :
    ∃ bad n v c, readBody bad x body = .ok (n, v) ∧ v.toCoeff? = some c ∧
      Terms.add n (if sign = '-' then c.neg else c) sum = .ok total := by
  obtain ⟨⟨n, c⟩, term, added⟩ := Outcome.bind_eq_ok.1 h
  simp only [readTerm] at term
  split at term
  · cases term
  obtain ⟨⟨n', v⟩, body, term⟩ := Outcome.bind_eq_ok.1 term
  cases coeff : v.toCoeff? with
  | none =>
    simp only [coeff] at term
    cases term
  | some c' =>
    simp only [coeff] at term
    cases term
    exact ⟨_, n, v, c', body, coeff, added⟩

theorem parse_eq_ok {p : Poly} (h : parse t (some x) = .ok p) :
    ∃ total, (signedTerms (Text.withoutSpaces t)).foldlM (addTerm x t) [] = .ok total ∧ p = ofTerms x total := by
  simp only [parse] at h
  split at h
  · cases h
  obtain ⟨total, fold, eq⟩ := Outcome.bind_eq_ok.1 (show ((signedTerms (Text.withoutSpaces t)).foldlM (addTerm x t) [] >>=
    fun terms => pure (ofTerms x terms)) = .ok p from h)
  exact ⟨total, fold, (Except.ok.inj eq).symm⟩

theorem squeeze_written {sign : Char} (signed : sign = '+' ∨ sign = '-') (body : Text) (terms : List SignedTerm) :
    squeeze (written ((sign, body) :: terms)) = sign :: (squeeze body ++ squeeze (written terms)) := by
  rw [written_cons, List.cons_append, ← squeeze_append]
  rcases signed with rfl | rfl <;> rfl

theorem atOperator_written (each : ∀ term ∈ terms, IsTerm term) : AtOperator (squeeze (written terms)) := by
  cases terms with
  | nil => exact nofun
  | cons term terms =>
    have signed := (each term List.mem_cons_self).1
    rw [squeeze_written signed]
    rintro _ ⟨⟩
    exact signed.imp id .inl

/-- A term that is read is a product in front of what follows it. -/
theorem product_of_term {sign : Char} {body rest : Text} (name : IsName x)
    (added : addTerm x t sum (sign, body) = .ok total) (uncut : Uncut 0 sign body) (groups : groupsAfter x body = true)
    (next : AtOperator rest) (expects : expectsOperand last = true)
    (read : scan source position 0 last (squeeze body ++ rest) = .ok ts) (only : OnlyName x ts) :
    ∃ n c us ts' position' last', Terms.add n (if sign = '-' then c.neg else c) sum = .ok total ∧
      Signed x (fun c => Worth x [(n, c)]) c us ∧ ts = us ++ ts' ∧ expectsOperand last' = false ∧
        scan source position' 0 last' rest = .ok ts' := by
  obtain ⟨bad, n, v, c, body_read, coeff, added⟩ := addTerm_eq_ok added
  obtain ⟨us, yields, product⟩ := signed_of_readBody name body_read coeff uncut groups next expects read only
  obtain ⟨position', last', ts', complete, later, rfl⟩ := yields.eq_append read
  exact ⟨n, c, us, ts', position', last', added, product, rfl, complete, later⟩

/-- Every term that is read adds to what the tokens so far stand for. -/
theorem sums_of_terms (name : IsName x) (each : ∀ term ∈ terms, IsTerm term)
    (alike : ∀ term ∈ terms, groupsAfter x term.2 = true) (fold : terms.foldlM (addTerm x t) sum = .ok total)
    (descending : sum.Descending) (sums : Sums x sum us) (complete : expectsOperand last = false)
    (read : scan source position 0 last (squeeze (written terms)) = .ok ts) (only : OnlyName x ts) :
    Sums x total (us ++ ts) := by
  induction terms generalizing sum us position last ts with
  | nil =>
    cases fold
    obtain ⟨-, -, rfl⟩ := scan_nil_eq_ok read
    rwa [List.append_nil]
  | cons term terms ih =>
    obtain ⟨sign, body⟩ := term
    obtain ⟨⟨signed, uncut⟩, each⟩ := List.forall_mem_cons.1 each
    obtain ⟨groups, alike⟩ := List.forall_mem_cons.1 alike
    rw [List.foldlM_cons] at fold
    obtain ⟨sum', added, fold⟩ := Outcome.bind_eq_ok.1 fold
    obtain ⟨o, found, grows⟩ : ∃ o, (∀ rest, lexeme? sign rest = some (.operator o, 0)) ∧
        ∀ n c vs m, Terms.add n (if sign = '-' then c.neg else c) sum = .ok sum' →
          Signed x (fun c => Worth x [(n, c)]) c vs → Sums x sum' (us ++ Mark.token m (.operator o) :: vs) := by
      rcases signed with rfl | rfl
      · exact ⟨.plus, fun _ => rfl, fun n c vs m added product => sums.add product descending added m⟩
      · exact ⟨.minus, fun _ => rfl, fun n c vs m added product => sums.sub product descending added m⟩
    rw [squeeze_written signed, scan_operator (found _) complete] at read
    obtain ⟨ts₁, after, rfl⟩ := Outcome.map_eq_ok.1 read
    have only := (List.forall_mem_cons.1 only).2
    obtain ⟨n, c, vs, ts₂, position', last', added, product, rfl, complete', later⟩ :=
      product_of_term name added uncut groups (atOperator_written each) (by rfl) after only
    have whole := ih each alike fold (Terms.descending_add descending added)
      (grows n c vs ⟨[sign], position⟩ added product) complete' later (List.forall_mem_append.1 only).2
    simpa using whole

/-- The first term is worth itself; before it there may be a minus sign. -/
theorem sums_of_signedTerms (name : IsName x) (alike : ∀ term ∈ signedTerms t, groupsAfter x term.2 = true)
    (fold : (signedTerms t).foldlM (addTerm x source) [] = .ok total) (read : scan source 0 0 none (squeeze t) = .ok ts)
    (only : OnlyName x ts) : Sums x total ts := by
  obtain ⟨⟨sign, body⟩, terms, eq, whole, each⟩ := signedTerms_spec t
  rw [eq] at alike fold
  obtain ⟨⟨signed, uncut⟩, each⟩ := List.forall_mem_cons.1 each
  obtain ⟨groups, alike⟩ := List.forall_mem_cons.1 alike
  rw [List.foldlM_cons] at fold
  obtain ⟨sum, first, fold⟩ := Outcome.bind_eq_ok.1 fold
  have next := atOperator_written each
  obtain ⟨us, ts', position', last', descending, sums, rfl, complete, later⟩ : ∃ us ts' position' last',
      sum.Descending ∧ Sums x sum us ∧ ts = us ++ ts' ∧ expectsOperand last' = false ∧
        scan source position' 0 last' (squeeze (written terms)) = .ok ts' := by
    rcases whole with explicit | ⟨plus, implicit⟩
    · rw [explicit, squeeze_written signed] at read
      rcases signed with rfl | rfl
      · -- A plus sign stands between two operands only.
        obtain ⟨form, k, depth', following, found, -, fit, -⟩ := scan_cons_eq_ok read
        cases Option.some.inj ((show lexeme? '+' _ = some (.operator .plus, 0) from rfl).symm.trans found)
        cases fit
      · have negation : scan source 0 0 none ('-' :: (squeeze body ++ squeeze (written terms))) = _ := scan_negate rfl nofun
        obtain ⟨ts₁, after, rfl⟩ := Outcome.map_eq_ok.1 (negation.symm.trans read)
        have only := (List.forall_mem_cons.1 only).2
        obtain ⟨n, c, us, ts₂, position', last', added, product, rfl, complete, later⟩ :=
          product_of_term name first uncut groups next (by rfl) after only
        obtain ⟨e, derived, worth⟩ := product.negated ⟨['-'], 0⟩
        cases added
        exact ⟨_, ts₂, position', last', List.pairwise_singleton _ _, ⟨e, .ofProduct derived, worth⟩, rfl, complete, later⟩
    · obtain rfl : sign = '+' := plus
      rw [implicit, squeeze_append] at read
      obtain ⟨n, c, us, ts₂, position', last', added, product, rfl, complete, later⟩ :=
        product_of_term name first uncut groups next (by rfl) read only
      obtain ⟨e, derived, worth⟩ := product.plain
      cases added
      exact ⟨us, ts₂, position', last', List.pairwise_singleton _ _, ⟨e, .ofProduct derived, worth⟩, rfl, complete, later⟩
  exact sums_of_terms name each alike fold descending sums complete later (List.forall_mem_append.1 only).2

/-! ## Literals -/

/-- Nothing is known but the variable. -/
theorem onlyName_of_evalWith {e : Expression} (derived : Derives .sum e ts)
    (h : e.evalWith (variableMeaning x source) = .ok v) : OnlyName x ts := by
  rintro ⟨kind, value, position⟩ mem
  constructor
  · rintro (rfl : kind = _)
    obtain ⟨a, found⟩ := meant_of_evalWith h (mem_postorder_of_mem derived mem (by simp) (by simp))
    by_contra other
    have apart : (value == x) = false := beq_eq_false_iff_ne.2 other
    have unknown : (variableScope x).value? value = none := by
      simp [Scope.value?, variableScope, List.lookup_cons, apart]
    simp only [variableMeaning, Scope.meaning, Scope.operandValue, unknown] at found
    cases found
  · rintro (rfl : kind = _)
    obtain ⟨a, b, called⟩ := meant_of_evalWith h (mem_postorder_of_mem derived mem (by simp) (by simp))
    cases called

/-- Both ways of reading a literal give one polynomial, where what follows the variable in a term groups as it is read. The
polynomial equals the value of the expression, unless this is a matrix of zeros. -/
theorem parse_same_eval {p : Poly} (name : IsName x) (parsed : parse t (some x) = .ok p)
    (evaluated : (variableScope x).eval t = .ok v)
    (alike : ∀ term ∈ signedTerms (Text.withoutSpaces t), groupsAfter x term.2 = true) : v.toPoly x = p ∧
    (Value.same (.polynomial p) v = true ∨ (∃ m, v = .matrix m) ∧ v.isZero = true ∧ p.isZero = true) := by
  obtain ⟨form, read, run⟩ := Outcome.bind_eq_ok.1 evaluated
  obtain ⟨ts, e, w, tokens, derived, value, rfl⟩ := Scope.exists_of_run read run
  obtain ⟨total, fold, rfl⟩ := parse_eq_ok parsed
  have scanned := (scan_of_tokenize tokens).2
  rw [← Text.squeeze_withoutSpaces] at scanned
  obtain ⟨f, derived', worth⟩ := sums_of_signedTerms name alike fold scanned (onlyName_of_evalWith derived value)
  rw [evalWith_unique _ derived derived'] at value
  obtain ⟨isOver, toPoly⟩ := worth _ w value
  have same := (Value.toPoly_simplify isOver).trans toPoly
  refine ⟨same, ?_⟩
  have equal := Value.same_toPoly isOver.simplify_over
  rwa [same] at equal

/-- All that a term may have: signs, an exponent, factors around the variable, a divisor, and no variable. -/
theorem parse_same_eval_quadratic :
    let t : Text := "-3x^2/2 + 2*x*(5%3) - 7".toList
    let p : Poly := ofTerms ['x'] [(2, .ofRat (-3 / 2)), (1, .ofRat 4), (0, .ofRat (-7))]
    parse t (some ['x']) = .ok p ∧ (variableScope ['x']).eval t = .ok (.polynomial p) ∧
      (Value.polynomial p).toPoly ['x'] = p ∧ (Value.same (.polynomial p) (.polynomial p) = true ∨
        (∃ m, Value.polynomial p = .matrix m) ∧ (Value.polynomial p).isZero = true ∧ p.isZero = true) := by
  intro t p
  have parsed : parse t (some ['x']) = .ok p := by decide +kernel
  have evaluated : (variableScope ['x']).eval t = .ok (.polynomial p) := by decide +kernel
  exact ⟨parsed, evaluated, parse_same_eval (by decide +kernel) parsed evaluated (by decide +kernel)⟩

/-- The two ways of reading a literal give results that are not equal. -/
def ReadApart (x t : Text) : Prop :=
  ∃ p v, parse t (some x) = .ok p ∧ (variableScope x).eval t = .ok v ∧ Value.same (.polynomial p) v = false

/-- A matrix of zeros is no polynomial. What follows a divisor or a factor after the variable is read with it, before it is
applied to the variable. -/
theorem zeroMatrix_readApart : IsName ['x'] ∧ ReadApart ['x'] "[[0]]".toList ∧ ReadApart ['x'] "x/2/3".toList ∧
    ReadApart ['x'] "3x*6%4".toList := by
  refine ⟨by decide +kernel, ⟨ofTerms ['x'] [], .matrix ⟨1, 1, by decide, by decide, .ofFn fun _ _ => 0⟩, ?_⟩,
    ⟨monomial ['x'] 1 (.ofRat (3 / 2)), .polynomial (monomial ['x'] 1 (.ofRat (1 / 6))), ?_⟩,
    ⟨monomial ['x'] 1 (.ofRat 6), .polynomial (monomial ['x'] 1 (.ofRat 2)), ?_⟩⟩
  all_goals decide +kernel

end Reckoner.Poly
