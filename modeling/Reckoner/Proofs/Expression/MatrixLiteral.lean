import Mathlib.Data.Fin.VecNotation
import Reckoner.Proofs.Expression.Extension
import Reckoner.Proofs.Expression.Writing
import Reckoner.Proofs.Line.Names
import Reckoner.Proofs.Mat.Literals
import Reckoner.Proofs.Token.Pieces
import Reckoner.Proofs.Value.Action
/-!
# Matrix literals of expressions

The entries of a matrix literal are expressions of the same scope. Their blanks go before they are read, which does not
matter for what they are worth, and the literal is taken apart into the entries it was made from. Main statement: a literal
is worth the matrix of what its entries are worth, as long as these are numbers, and fails otherwise.
-/

namespace Reckoner

/-! ## Blanks -/

namespace Text

theorem squeeze_squeeze (t : Text) : squeeze (squeeze t) = squeeze t := by
  simp [squeeze]

/-- Blanks are dropped from joined texts one by one. -/
theorem squeeze_join {c : Char} (mark : CharClass.isBlank c = false) (ts : List Text) :
    squeeze (join [c] ts) = join [c] (ts.map squeeze) := by
  have separator : squeeze [c] = [c] := by simp [squeeze, mark]
  induction ts with
  | nil => rfl
  | cons t ts ih =>
    cases ts with
    | nil => simp [join]
    | cons u ts =>
      simp only [join, List.map_cons] at ih ⊢
      rw [List.intercalate_cons_cons, List.intercalate_cons_cons, squeeze_append, squeeze_append, separator, ih]

theorem squeeze_enclosed (t : Text) : squeeze ('[' :: t ++ [']']) = '[' :: squeeze t ++ [']'] := by
  rw [List.cons_append, ← List.singleton_append, squeeze_append, squeeze_append]
  rfl

end Text

namespace Mat

open Text

theorem squeeze_nestedLiteral (rows : List (List Text)) :
    squeeze (nestedLiteral rows) = nestedLiteral (rows.map (·.map squeeze)) := by
  have comma : CharClass.isBlank ',' = false := by decide
  rw [nestedLiteral, squeeze_enclosed, squeeze_join (by decide), List.map_map, nestedLiteral, List.map_map]
  refine congrArg (fun rows => '[' :: join [';'] rows ++ [']']) (List.map_congr_left fun row _ => ?_)
  simp only [Function.comp_apply, squeeze_enclosed, squeeze_join comma]

/-- A text that can be an entry of a literal as soon as its blanks are dropped. -/
structure IsSpacedEntry (t : Text) : Prop where
  nonempty : squeeze t ≠ []
  plain : ∀ c ∈ t, c ∉ ['[', ']', ',', ';']

theorem IsSpacedEntry.squeeze {t : Text} (h : IsSpacedEntry t) : IsEntry (squeeze t) := by
  refine ⟨h.nonempty, fun c mem listed => ?_⟩
  obtain ⟨stands, notBlank⟩ := List.mem_filter.1 mem
  have space : c ≠ ' ' := by
    rintro rfl
    cases notBlank
  refine h.plain c stands ?_
  simp only [List.mem_cons, List.not_mem_nil, or_false] at listed ⊢
  tauto

end Mat

/-- Texts that differ in blanks only are read as the same tokens. -/
theorem Token.tokenize_of_squeeze {t t' source source' : Text} {ts : List Token} (h : tokenize t source = .ok ts)
    (same : Text.squeeze t' = Text.squeeze t) : tokenize t' source' = .ok ts := by
  obtain ⟨nonempty, read⟩ := scan_of_tokenize h
  obtain ⟨last, complete, reads⟩ := scan_append read
  -- What the text is shown as stands in messages only: read in front of nothing, the tokens are the same for any.
  have apart : Apart (Text.squeeze t) [] := ⟨nofun, .inl nofun⟩
  have alone := reads source' 0 0 apart
  have unmoved : ts.map (moved 0) = ts := List.map_id'' (fun tok => by simp [moved]) ts
  rw [scan, if_neg (by simp), complete, unmoved, List.append_nil] at alone
  rw [tokenize, same, if_neg (by simpa using nonempty), alone]
  simp

/-! ## Entries as expressions -/

namespace Scope

variable {scope : Scope} {t t' source : Text} {readMatrix : Text → Outcome Value} {p : Postfix} {v : Value}

/-- An expression without matrix literals is worth the same with other blanks, and whatever reads matrix literals. -/
theorem run_of_squeeze (noLiteral : '[' ∉ t) (read : Postfix.parse t source = .ok p) (h : scope.run readMatrix p = .ok v)
    (same : Text.squeeze t' = Text.squeeze t) (source' : Text) (readMatrix' : Text → Outcome Value) :
    ∃ p', Postfix.parse t' source' = .ok p' ∧ scope.run readMatrix' p' = .ok v := by
  obtain ⟨ts, e, w, tokens, derived, value, rfl⟩ := exists_of_run read h
  have tokens' : Token.tokenize t' source' = .ok ts := Token.tokenize_of_squeeze tokens same
  refine ⟨⟨e.postorder, source'⟩, Outcome.bind_eq_ok.2 ⟨ts, tokens', Expression.ofTokens_derives derived source'⟩, ?_⟩
  have value' : e.evalWith (scope.meaning readMatrix' source) = .ok w := by
    -- Only a token that is a matrix literal is read by what reads them, and there is none.
    rw [← value]
    refine Expression.evalWith_congr (fun o m mem => ?_) (fun _ _ => rfl) rfl rfl
    cases o with
    | matrix =>
      exact absurd (Token.mem_bracket_of_token tokens (Expression.mem_of_mem_postorder derived mem) rfl) noLiteral
    | _ => rfl
  have same : scope.Extends scope := ⟨fun _ _ => id, fun _ _ => id⟩
  rw [run, Expression.run_postorder, Expression.evalWith_extends same (fun _ _ => id) value' source']
  rfl

/-- As an entry a text is worth what it is worth as an expression. -/
theorem eval_eq_ok_iff (noLiteral : '[' ∉ t) :
    scope.eval t = .ok v ↔ Postfix.entryValue scope (Text.squeeze t) = .ok v := by
  have squeezed := Text.squeeze_squeeze t
  refine ⟨fun h => ?_, fun h => ?_⟩
  · obtain ⟨p, read, h⟩ := Outcome.bind_eq_ok.1 h
    exact Outcome.bind_eq_ok.2 (run_of_squeeze noLiteral read h squeezed _ _)
  · obtain ⟨p, read, h⟩ := Outcome.bind_eq_ok.1 h
    have noLiteral' : '[' ∉ Text.squeeze t := fun mem => noLiteral (List.mem_filter.1 mem).1
    exact Outcome.bind_eq_ok.2 (run_of_squeeze noLiteral' read h squeezed.symm _ _)

/-- What an expression is worth is in its simplest kind. -/
theorem simplify_of_eval (h : scope.eval t = .ok v) : v.simplify = v := by
  obtain ⟨p, -, h⟩ := Outcome.bind_eq_ok.1 h
  obtain ⟨w, -, h⟩ := Outcome.bind_eq_ok.1 h
  cases h
  exact w.simplify_simplify

end Scope

/-! ## Literals without blanks -/

open Mat Text

section

variable {r c : Nat} {cells : Fin r → Fin c → Text} (hr : 0 < r) (hc : 0 < c) (entries : ∀ i j, IsEntry (cells i j))

include hr hc entries

namespace Mat

/-- A grid of entries is cut out of its literal row by row. -/
theorem rowTexts_rowsOf : rowTexts (nestedLiteral (rowsOf cells)) = .ok ((rowsOf cells).map (join [','])) := by
  refine rowTexts_nestedLiteral (List.ne_nil_of_length_pos (by simpa [rowsOf] using hr)) ?_
  refine List.forall_mem_ofFn_iff.2 fun i => ⟨List.ne_nil_of_length_pos (by simpa using hc), ?_⟩
  exact List.forall_mem_ofFn_iff.2 (entries i)

/-- Where the literal is read, every entry of the grid is. -/
theorem exists_of_readRows_rowsOf {α : Type} {readCell : Text → Outcome α} {rows : List (List α)}
    (h : readRows readCell (nestedLiteral (rowsOf cells)) = .ok rows) (i : Fin r) (j : Fin c) :
    ∃ row ∈ rows, ∃ a ∈ row, readCell (cells i j) = .ok a := by
  have mem : join [','] (List.ofFn (cells i)) ∈ (rowsOf cells).map (join [',']) :=
    List.mem_map_of_mem (List.mem_ofFn.2 ⟨i, rfl⟩)
  have separate : (join [','] (List.ofFn (cells i))).splitOn ',' = List.ofFn (cells i) := by
    refine List.splitOn_intercalate ',' (List.forall_mem_ofFn_iff.2 fun j comma => ?_)
      (List.ne_nil_of_length_pos (by simpa using hc))
    exact (entries i j).plain ',' comma (by decide)
  refine exists_of_readRows h (rowTexts_rowsOf hr hc entries) mem ?_
  rw [separate]
  exact List.mem_ofFn.2 ⟨j, rfl⟩

end Mat

namespace Postfix

omit hr hc entries in
/-- The values that make up a matrix are numbers. -/
theorem exists_number_of_matrixOf {rows : List (List Value)} {row : List Value} {v w : Value}
    (h : matrixOf rows = .ok v) (mem : row ∈ rows) (mem' : w ∈ row) : ∃ x, w.simplify = .number x := by
  obtain ⟨cells, read, -⟩ := Outcome.bind_eq_ok.1 h
  obtain ⟨zs, -, read⟩ := Lists.mem_of_mapM_eq_ok read mem
  obtain ⟨z, -, read⟩ := Lists.mem_of_mapM_eq_ok read mem'
  cases value : w.simplify with
  | number x => exact ⟨x, rfl⟩
  | _ =>
    rw [value] at read
    cases read

variable {scope : Scope}

/-- The literal of entries that are worth numbers is worth their matrix. -/
theorem matrixValue_of_cells {values : Fin r → Fin c → Number}
    (read : ∀ i j, entryValue scope (cells i j) = .ok (.number (values i j))) :
    matrixValue scope (nestedLiteral (rowsOf cells)) =
      .ok (.matrix (ofCells hr hc fun i j => (values i j).toGaussian)) := by
  have rows := readRows_of_cells hr hc entries read (rowTexts_rowsOf hr hc entries)
  have made : ofRows ((rowsOf values).map (·.map Number.toGaussian)) =
      .ok (ofCells hr hc fun i j => (values i j).toGaussian) := by
    rw [rowsOf_map, ← rows_ofCells hr hc, ofRows_rows]
  rw [← rowsOf_map] at rows
  exact Outcome.bind_eq_ok.2 ⟨_, rows, matrixOf_numbers made⟩

/-- Where the literal is worth something, every entry is worth a number. -/
theorem exists_number_of_matrixValue {v : Value} (h : matrixValue scope (nestedLiteral (rowsOf cells)) = .ok v)
    (i : Fin r) (j : Fin c) : ∃ w x, entryValue scope (cells i j) = .ok w ∧ w.simplify = .number x := by
  obtain ⟨rows, read, h⟩ := Outcome.bind_eq_ok.1 h
  obtain ⟨row, mem, w, mem', value⟩ := exists_of_readRows_rowsOf hr hc entries read i j
  obtain ⟨x, number⟩ := exists_number_of_matrixOf h mem mem'
  exact ⟨w, x, value, number⟩

end Postfix

end

/-! ## Literals as expressions -/

namespace Scope

variable {r c : Nat} {cells : Fin r → Fin c → Text}

/-- As an expression a literal is worth what it is worth without its blanks. -/
theorem eval_nestedLiteral (scope : Scope) (entries : ∀ i j, IsSpacedEntry (cells i j)) :
    scope.eval (nestedLiteral (rowsOf cells)) =
      (Postfix.matrixValue scope (nestedLiteral (rowsOf fun i j => squeeze (cells i j)))).map Value.simplify := by
  set rows := rowsOf fun i j => squeeze (cells i j) with squeezedCells
  -- The brackets around the rows are the only ones inside, so that the literal is read as one operand.
  have balanced : Line.Balanced (join [';'] (rows.map fun row => '[' :: join [','] row ++ [']'])) := by
    refine balanced_rows (List.forall_mem_ofFn_iff.2 fun i => .of_forall fun d char => ?_)
    have outside := row_forall_mem (List.forall_mem_ofFn_iff.2 fun j => (entries i j).squeeze) d char
    simp only [List.mem_cons, not_or] at outside
    exact ⟨outside.1, outside.2.1⟩
  have squeezed : squeeze (nestedLiteral (rowsOf cells)) = nestedLiteral rows := by
    rw [squeeze_nestedLiteral, rowsOf_map]
  obtain ⟨p, read, value⟩ := Postfix.parse_enclosed balanced squeezed (nestedLiteral (rowsOf cells))
  show (Postfix.parse _ _ >>= fun p => p.eval scope) = _
  rw [read]
  exact value scope

/-- The literal of a grid of expressions is worth the matrix whose cell at any place is the number that the expression at
that place is worth. If one of the expressions fails, or is worth a matrix or a polynomial, the literal fails. -/
theorem eval_matrixLiteral (scope : Scope) (hr : 0 < r) (hc : 0 < c) (entries : ∀ i j, IsSpacedEntry (cells i j)) :
    (∀ values : Fin r → Fin c → Number, (∀ i j, scope.eval (cells i j) = .ok (.number (values i j))) →
        ∃ m, scope.eval (nestedLiteral (rowsOf cells)) = .ok (.matrix m) ∧ m.shape = (r, c) ∧
          ∀ i j, Datum.cellAt m (.integer i.val) (.integer j.val) = .ok (.value (.number (values i j)))) ∧
      ((∃ i j, ∀ x, scope.eval (cells i j) ≠ .ok (.number x)) →
        ∃ e, scope.eval (nestedLiteral (rowsOf cells)) = .error e) := by
  have noLiteral : ∀ i j, '[' ∉ cells i j := fun i j mem => (entries i j).plain '[' mem (by decide)
  have squeezed : ∀ i j, IsEntry (squeeze (cells i j)) := fun i j => (entries i j).squeeze
  constructor
  · intro values read
    have entry : ∀ i j, Postfix.entryValue scope (squeeze (cells i j)) = .ok (.number (values i j)) := fun i j =>
      (eval_eq_ok_iff (noLiteral i j)).1 (read i j)
    refine ⟨ofCells hr hc fun i j => (values i j).toGaussian, ?_, rfl, fun i j => ?_⟩
    · rw [eval_nestedLiteral scope entries, Postfix.matrixValue_of_cells hr hc squeezed entry]
      rfl
    · rw [cellAt_ofCells]
      exact congrArg (Except.ok ∘ Datum.value) (simplify_of_eval (read i j))
  · rintro ⟨i, j, other⟩
    cases whole : scope.eval (nestedLiteral (rowsOf cells)) with
    | error e => exact ⟨e, rfl⟩
    | ok v =>
      -- A literal that is worth something is made of numbers, so the other entry would be one of them.
      rw [eval_nestedLiteral scope entries] at whole
      obtain ⟨m, value, -⟩ := Outcome.map_eq_ok.1 whole
      obtain ⟨w, x, entry, number⟩ := Postfix.exists_number_of_matrixValue hr hc squeezed value i j
      have cell : scope.eval (cells i j) = .ok w := (eval_eq_ok_iff (noLiteral i j)).2 entry
      rw [simplify_of_eval cell] at number
      exact absurd (number ▸ cell) (other x)

/-- A scope in which `a` is a number. -/
def naming : Scope := { values := [(['a'], .rational 3)] }

/-- A row with blanks in it, and one with a name that stands for nothing. -/
def spacedRow : Fin 1 → Fin 2 → Text := ![!["a".toList, " 2 * a".toList]]

def unknownRow : Fin 1 → Fin 2 → Text := ![!["a".toList, "b".toList]]

theorem eval_matrixLiteral_rows :
    (0 < 1 ∧ 0 < 2 ∧ (∀ i j, IsSpacedEntry (spacedRow i j)) ∧ (∀ i j, IsSpacedEntry (unknownRow i j)) ∧
      (∀ i j, naming.eval (spacedRow i j) = .ok (.number (![![.rational 3, .rational 6]] i j))) ∧
      ∀ x, naming.eval (unknownRow 0 1) ≠ .ok (.number x)) ∧
      (∃ m, naming.eval (nestedLiteral (rowsOf spacedRow)) = .ok (.matrix m) ∧ m.shape = (1, 2) ∧
        ∀ i j : Fin _, Datum.cellAt m (.integer i.val) (.integer j.val) =
          .ok (.value (.number (![![.rational 3, .rational 6]] i j)))) ∧
      ∃ e, naming.eval (nestedLiteral (rowsOf unknownRow)) = .error e := by
  have spaced : ∀ i j, IsSpacedEntry (spacedRow i j) := fun i j =>
    ⟨by revert i j; decide +kernel, forall_of_all (by revert i j; decide +kernel)⟩
  have unknown : ∀ i j, IsSpacedEntry (unknownRow i j) := fun i j =>
    ⟨by revert i j; decide +kernel, forall_of_all (by revert i j; decide +kernel)⟩
  have read : ∀ i j, naming.eval (spacedRow i j) = .ok (.number (![![.rational 3, .rational 6]] i j)) := by
    decide +kernel
  have undefined : ∀ x, naming.eval (unknownRow 0 1) ≠ .ok (.number x) := by
    have fails : naming.eval (unknownRow 0 1) = refuse (.undefinedVariables ['b'] [['b']]) := by decide +kernel
    rw [fails]
    exact nofun
  exact ⟨⟨Nat.one_pos, Nat.two_pos, spaced, unknown, read, undefined⟩,
    (eval_matrixLiteral naming Nat.one_pos Nat.two_pos spaced).1 _ read,
    (eval_matrixLiteral naming Nat.one_pos Nat.two_pos unknown).2 ⟨0, 1, undefined⟩⟩

end Scope

end Reckoner
