import Reckoner.Proofs.Expression.Evaluation
import Reckoner.Proofs.Expression.Parsing
import Reckoner.Proofs.Token.Weight
/-!
# The weight of matrix literals

A matrix literal with a value opens as many brackets and parentheses as it closes, as its entries are expressions. So does
every expression that has a value.
-/

namespace Reckoner

open Text

/-! ## Parts of a literal -/

namespace Text

theorem weight_of_between? {s t : Text} (h : between? '[' ']' t = some s) : weight t = weight s := by
  cases t with
  | nil => cases h
  | cons c t =>
    simp only [between?, chop?] at h
    split at h
    next opening =>
      split at h
      next closing =>
        cases h
        obtain ⟨front, rfl⟩ := List.getLast?_eq_some_iff.1 closing
        subst opening
        rw [List.dropLast_concat, weight_cons, weight_append]
        show 1 + (weight front + -1) = weight front
        omega
      · cases h
    · cases h

/-- A text has no weight if what stands between its separators has none. -/
theorem weight_of_splitOn {c : Char} (level : Poly.depthAfter 0 c = 0) {t : Text} (h : ∀ s ∈ t.splitOn c, weight s = 0) :
    weight t = 0 := by
  have joined : weight ([c].intercalate (t.splitOn c)) = 0 :=
    Lists.intercalate_induction (p := fun s => weight s = 0) rfl (fun hs ht => by simp [hs, ht, level]) h
  rwa [List.intercalate_splitOn] at joined

end Text

namespace Mat

variable {literal : Text}

/-- A literal has no weight if its rows have none. -/
theorem weight_of_rowTexts {rows : List Text} (found : rowTexts literal = .ok rows) (h : ∀ row ∈ rows, weight row = 0) :
    weight literal = 0 := by
  simp only [rowTexts] at found
  split at found
  · cases found
  next inner between =>
    have whole : weight literal = weight inner := by
      split at between
      · cases between
      · rw [← weight_withoutSpaces, weight_of_between? between]
    rw [whole]
    refine weight_of_splitOn (c := ';') rfl fun row mem => ?_
    split at found
    · obtain ⟨i, numbered⟩ := List.mem_iff_getElem?.1 mem
      have numbered : (row, i) ∈ (inner.splitOn ';').zipIdx := List.mk_mem_zipIdx_iff_getElem?.2 numbered
      obtain ⟨entries, mem, read⟩ := Lists.mem_of_mapM_eq_ok found numbered
      simp only at read
      split at read
      next enclosed =>
        cases read
        rw [weight_of_between? enclosed, h _ mem]
      · cases read
    · cases found
      exact h row mem

/-- Every entry of a literal that is read has been read. -/
theorem exists_of_readRows {α : Type} {readCell : Text → Outcome α} {rows : List (List α)} {texts : List Text} {row entry : Text}
    (h : readRows readCell literal = .ok rows) (found : rowTexts literal = .ok texts) (mem : row ∈ texts)
    (mem' : entry ∈ row.splitOn ',') : ∃ cells ∈ rows, ∃ a ∈ cells, readCell entry = .ok a := by
  obtain ⟨texts', found', h⟩ := Outcome.bind_eq_ok.1 h
  cases found.symm.trans found'
  obtain ⟨rows', read, h⟩ := Outcome.bind_eq_ok.1 h
  have same : rows' = rows := by
    simp only at h
    split at h
    · cases h
    · exact Except.ok.inj h
  subst same
  obtain ⟨i, numbered⟩ := List.mem_iff_getElem?.1 mem
  obtain ⟨cells, member, read⟩ := Lists.mem_of_mapM_eq_ok read (List.mk_mem_zipIdx_iff_getElem?.2 numbered)
  obtain ⟨j, numbered'⟩ := List.mem_iff_getElem?.1 mem'
  obtain ⟨a, member', read⟩ := Lists.mem_of_mapM_eq_ok read (List.mk_mem_zipIdx_iff_getElem?.2 numbered')
  refine ⟨cells, member, a, member', ?_⟩
  simp only [readEntry] at read
  split at read
  · cases read
  · split at read
    · split at read <;> cases read
    · exact read

/-- A literal has no weight if every entry that can be read has none. -/
theorem weight_of_readRows {α : Type} {readCell : Text → Outcome α} {rows : List (List α)}
    (h : readRows readCell literal = .ok rows) (entries : ∀ t a, readCell t = .ok a → weight t = 0) :
    weight literal = 0 := by
  obtain ⟨texts, found, -⟩ := Outcome.bind_eq_ok.1 h
  refine weight_of_rowTexts found fun row mem => weight_of_splitOn (c := ',') rfl fun entry mem' => ?_
  obtain ⟨-, -, a, -, read⟩ := exists_of_readRows h found mem mem'
  exact entries entry a read

end Mat

/-! ## Expressions with a value -/

/-- A text with a value stands for an expression that has this value. -/
theorem Scope.exists_of_run {readMatrix : Text → Outcome Value} {scope : Scope} {t source : Text} {form : Postfix}
    {v : Value} (read : Postfix.parse t source = .ok form) (h : scope.run readMatrix form = .ok v) :
    ∃ ts e w, Token.tokenize t source = .ok ts ∧ Expression.Derives .sum e ts ∧
      e.evalWith (scope.meaning readMatrix source) = .ok w ∧ w.simplify = v := by
  obtain ⟨ts, tokens, read⟩ := Outcome.bind_eq_ok.1 read
  obtain ⟨e, derived⟩ := Expression.tokenize_derives tokens
  rw [Expression.ofTokens_derives derived] at read
  cases read
  obtain ⟨w, value, h⟩ := Outcome.bind_eq_ok.1 h
  rw [Expression.run_postorder] at value
  exact ⟨ts, e, w, tokens, derived, value, Except.ok.inj h⟩

/-- The text of an expression has no weight if its matrix literals have none. -/
theorem Token.weight_of_tokenize {t source : Text} {ts : List Token} (h : tokenize t source = .ok ts)
    (balanced : Balanced ts) : weight t = 0 := by
  simp only [tokenize] at h
  split at h
  · cases h
  · simpa [weight_squeeze] using scan_weight h balanced

/-- The matrix literals of an expression with a value have one. -/
theorem Expression.balanced_of_evalWith {l : Level} {e : Expression} {ts : List Token} (derived : Derives l e ts)
    {scope : Scope} {readMatrix : Text → Outcome Value} {source : Text} {v : Value}
    (h : e.evalWith (scope.meaning readMatrix source) = .ok v) (literals : ∀ t v, readMatrix t = .ok v → weight t = 0) :
    Token.Balanced ts := by
  rintro ⟨kind, value, position⟩ mem (rfl : kind = _)
  obtain ⟨v, read⟩ := meant_of_evalWith h (mem_postorder_of_mem derived mem nofun nofun)
  exact literals value v read

namespace Postfix

variable {scope : Scope} {t : Text} {v : Value}

theorem weight_of_entryValue (h : entryValue scope t = .ok v) : weight t = 0 := by
  obtain ⟨form, read, h⟩ := Outcome.bind_eq_ok.1 h
  obtain ⟨ts, e, w, tokens, derived, value, -⟩ := Scope.exists_of_run read h
  exact Token.weight_of_tokenize tokens (Expression.balanced_of_evalWith derived value nofun)

theorem weight_of_matrixValue (h : matrixValue scope t = .ok v) : weight t = 0 := by
  obtain ⟨rows, read, -⟩ := Outcome.bind_eq_ok.1 h
  exact Mat.weight_of_readRows read fun t a => weight_of_entryValue

end Postfix

end Reckoner
