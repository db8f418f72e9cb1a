import Mathlib.Data.List.OfFn
import Reckoner.Mat.Literal
import Reckoner.Proofs.Line.Checks
import Reckoner.Proofs.Token.Reading
/-!
# Matrices as they are shown

The text of a matrix is the literal that holds the texts of its cells, row by row. Main statement: whatever reads the
text of every entry reads a literal entry by entry, with brackets around the rows or without.
-/

namespace Reckoner

/-! ## Joined texts -/

namespace Text

/-- What holds of the separator and the characters of the parts holds of every character. -/
theorem join_forall_mem {p : Char → Prop} {c : Char} (separator : p c) {ts : List Text} (h : ∀ t ∈ ts, ∀ d ∈ t, p d) :
    ∀ d ∈ join [c] ts, p d :=
  Lists.intercalate_induction (p := fun t => ∀ d ∈ t, p d) (by simp)
    (fun hs ht => List.forall_mem_append.2 ⟨hs, List.forall_mem_cons.2 ⟨separator, ht⟩⟩) h

theorem join_ne_nil {ts : List Text} (nonempty : ts ≠ []) (h : ∀ t ∈ ts, t ≠ []) (c : Char) : join [c] ts ≠ [] := by
  obtain ⟨t, rest, rfl⟩ := List.exists_cons_of_ne_nil nonempty
  cases rest with
  | nil => simpa [join] using h t List.mem_cons_self
  | cons u rest => simp [join, List.intercalate_cons_cons]

theorem between?_enclosed (c d : Char) (t : Text) : between? c d (c :: t ++ [d]) = some t := by
  simp [between?, chop?]

end Text

namespace Mat

open Text Rational

/-! ## Rows -/

theorem rows_ne_nil (m : Mat) : m.rows ≠ [] :=
  List.ne_nil_of_length_pos (by simpa [rows, Grid.toLists] using m.height_pos)

theorem length_of_mem_rows {m : Mat} {row : List Gaussian} (h : row ∈ m.rows) : row.length = m.width := by
  obtain ⟨i, rfl⟩ := List.mem_ofFn.1 h
  exact List.length_ofFn

theorem ne_nil_of_mem_rows {m : Mat} {row : List Gaussian} (h : row ∈ m.rows) : row ≠ [] :=
  List.ne_nil_of_length_pos (length_of_mem_rows h ▸ m.width_pos)

theorem length_headD {α : Type} {rows : List (List α)} {width : Nat} (some : rows ≠ [])
    (widths : ∀ row ∈ rows, row.length = width) : (rows.headD []).length = width := by
  cases rows with
  | nil => exact absurd rfl some
  | cons row rest => exact widths row List.mem_cons_self

theorem rows_map (f : Gaussian → Gaussian) (m : Mat) : (m.map f).rows = m.rows.map (·.map f) := by
  simp [rows, Grid.toLists, map, Grid.map, List.map_ofFn, Function.comp_def]

theorem map_eq_self_iff {f : Gaussian → Gaussian} {m : Mat} :
    m.map f = m ↔ ∀ i j, f (m.grid.cell i j) = m.grid.cell i j := by
  obtain ⟨r, c, _, _, g⟩ := m
  refine ⟨fun h i j => ?_, fun h => ?_⟩
  · have grid : g.map f = g := by simpa [map] using h
    rw [← Grid.cell_ofFn (fun i j => f (g.cell i j)) i j]
    exact congrArg (·.cell i j) grid
  · have grid : g.map f = g := Grid.ext_cell fun i j => (Grid.cell_ofFn _ i j).trans (h i j)
    simp [map, grid]

/-- A matrix is known by its rows. -/
theorem eq_of_rows_eq {m n : Mat} (h : m.rows = n.rows) : m = n := by
  -- The sizes come first: only when they agree do the two grids have one type.
  have width : m.width = n.width := by
    obtain ⟨row, mem⟩ := List.exists_mem_of_ne_nil m.rows m.rows_ne_nil
    rw [← length_of_mem_rows mem, length_of_mem_rows (h ▸ mem)]
  have height : m.height = n.height := by simpa [rows, Grid.toLists] using congrArg List.length h
  obtain ⟨r, c, _, _, g⟩ := m
  obtain ⟨r', c', _, _, g'⟩ := n
  obtain rfl : c = c' := width
  obtain rfl : r = r' := height
  have cells : ∀ i j, g.cell i j = g'.cell i j := fun i j =>
    congrFun (List.ofFn_inj.1 (congrFun (List.ofFn_inj.1 h) i)) j
  rw [Grid.ext_cell cells]

theorem rows_of_ofRows {rows : List (List Gaussian)} {m : Mat} (h : ofRows rows = .ok m) : m.rows = rows := by
  simp only [ofRows] at h
  split at h
  next =>
    split at h
    next same =>
      cases h
      refine List.ext_getElem (by simp [Mat.rows, Grid.toLists]) fun i hi hi' => ?_
      refine List.ext_getElem ?_ fun j hj hj' => ?_
      · simp [Mat.rows, Grid.toLists, same _ (List.getElem_mem hi')]
      · simp [Mat.rows, Grid.toLists]
    next => cases h
  next => cases h

/-- The rows of a matrix make up the matrix. -/
theorem ofRows_rows (m : Mat) : ofRows m.rows = .ok m := by
  have width : (m.rows.headD []).length = m.width := length_headD m.rows_ne_nil fun _ => length_of_mem_rows
  have positive : 0 < m.rows.length ∧ 0 < (m.rows.headD []).length :=
    ⟨List.length_pos_of_ne_nil m.rows_ne_nil, width ▸ m.width_pos⟩
  have same : ∀ row ∈ m.rows, row.length = (m.rows.headD []).length := fun row mem => by
    rw [width, length_of_mem_rows mem]
  have built : ∃ n, ofRows m.rows = .ok n := by
    simp only [ofRows, dif_pos positive, dif_pos same]
    exact ⟨_, rfl⟩
  obtain ⟨n, built⟩ := built
  rw [built, eq_of_rows_eq (rows_of_ofRows built)]

/-! ## Texts -/

/-- The text of the cells of a row. -/
def cellsText (row : List Gaussian) : Text := join [','] (row.map Gaussian.text)

/-- The text of the rows of a matrix. -/
def rowsText (m : Mat) : Text := join [';'] (m.rows.map fun row => '[' :: cellsText row ++ [']'])

theorem text_eq (m : Mat) : m.text = '[' :: m.rowsText ++ [']'] := rfl

theorem cellsText_forall_mem (row : List Gaussian) {p : Char → Prop} [DecidablePred p]
    (all : (',' :: 'i' :: marks).all (p ·) = true) : ∀ c ∈ cellsText row, p c := by
  obtain ⟨comma, each⟩ := Bool.and_eq_true_iff.1 all
  refine join_forall_mem (of_decide_eq_true comma) fun t ht => ?_
  obtain ⟨z, -, rfl⟩ := List.mem_map.1 ht
  exact Gaussian.textWith_forall_mem renders_text z each

theorem text_forall_mem (m : Mat) {p : Char → Prop} [DecidablePred p]
    (all : ('[' :: ']' :: ';' :: ',' :: 'i' :: marks).all (p ·) = true) : ∀ c ∈ m.text, p c := by
  obtain ⟨opening, all⟩ := Bool.and_eq_true_iff.1 all
  obtain ⟨closing, all⟩ := Bool.and_eq_true_iff.1 all
  obtain ⟨semicolon, each⟩ := Bool.and_eq_true_iff.1 all
  have enclosed : ∀ {t : Text}, (∀ c ∈ t, p c) → ∀ c ∈ '[' :: t ++ [']'], p c := fun h =>
    List.forall_mem_cons.2
      ⟨of_decide_eq_true opening, List.forall_mem_append.2 ⟨h, List.forall_mem_singleton.2 (of_decide_eq_true closing)⟩⟩
  refine enclosed (join_forall_mem (of_decide_eq_true semicolon) fun t ht => ?_)
  obtain ⟨row, -, rfl⟩ := List.mem_map.1 ht
  exact enclosed (cellsText_forall_mem row each)

theorem squeeze_text (m : Mat) : squeeze m.text = m.text := List.filter_eq_self.2 (m.text_forall_mem (by decide))

open Line

/-- Rows with brackets around them have matching brackets if what is in the rows has. -/
theorem balanced_rows {α : Type} {rows : List α} {shown : α → Text} (h : ∀ row ∈ rows, Balanced (shown row)) :
    Balanced (join [';'] (rows.map fun row => '[' :: shown row ++ [']'])) := by
  refine .join (by decide) (by decide) fun t ht => ?_
  obtain ⟨row, mem, rfl⟩ := List.mem_map.1 ht
  exact (h row mem).enclosed

theorem balanced_rowsText (m : Mat) : Balanced m.rowsText :=
  balanced_rows fun row _ => .of_forall (cellsText_forall_mem row (by decide))

theorem balanced_text (m : Mat) : Balanced m.text := m.balanced_rowsText.enclosed

theorem loneUnits_text (m : Mat) : LoneUnits m.text := by
  have enclosed : ∀ {t}, LoneUnits t → LoneUnits ('[' :: t ++ [']']) := fun h =>
    .cons rfl (h.append (.cons rfl trivial) (by rintro _ ⟨⟩; rfl))
  refine enclosed (.join rfl fun t ht => ?_)
  obtain ⟨row, -, rfl⟩ := List.mem_map.1 ht
  refine enclosed (.join rfl fun t ht => ?_)
  obtain ⟨z, -, rfl⟩ := List.mem_map.1 ht
  exact loneUnits_textWith renders_text z

/-- Matching brackets are read as one operand. -/
theorem lexesAs_enclosed {t : Text} (h : Balanced t) : Token.LexesAs ('[' :: t ++ [']']) .matrix := by
  refine ⟨'[', t ++ [']'], rfl, fun rest _ => ?_⟩
  rw [Token.lexeme?, if_pos rfl, List.append_assoc, h.closingBracket? Nat.one_pos]
  simp [Token.closingBracket?, Nat.add_comm]

/-! ## Literals -/

/-- A text that can be an entry of a literal: not empty, and without brackets, separators and spaces. -/
structure IsEntry (t : Text) : Prop where
  nonempty : t ≠ []
  plain : ∀ c ∈ t, c ∉ ['[', ']', ',', ';', ' ']

theorem isEntry_text (z : Gaussian) : IsEntry z.text :=
  ⟨Gaussian.textWith_ne_nil renders_text z, Gaussian.textWith_forall_mem renders_text z (by decide)⟩

/-- The literal with the given entries, in which every row has brackets. -/
def nestedLiteral (rows : List (List Text)) : Text :=
  '[' :: join [';'] (rows.map fun row => '[' :: join [','] row ++ [']']) ++ [']']

/-- The literal with the given entries, in which rows have no brackets. -/
def flatLiteral (rows : List (List Text)) : Text := '[' :: join [';'] (rows.map (join [','])) ++ [']']

example : nestedLiteral [["1".toList, "i".toList], ["2".toList, "3".toList]] = "[[1,i];[2,3]]".toList := rfl
example : flatLiteral [["1".toList, "i".toList]] = "[1,i]".toList := rfl
example : flatLiteral [["1".toList], ["i".toList]] = "[1;i]".toList := rfl

theorem text_eq_nestedLiteral (m : Mat) : m.text = nestedLiteral (m.rows.map (·.map Gaussian.text)) := by
  rw [nestedLiteral, List.map_map]
  rfl

/-- A text in brackets that is not empty has no spaces to drop and is long enough for a literal. -/
theorem enclosed_spec {inner : Text} (spaces : ' ' ∉ inner) (nonempty : inner ≠ []) :
    withoutSpaces ('[' :: inner ++ [']']) = '[' :: inner ++ [']'] ∧ ¬('[' :: inner ++ [']']).length < 3 := by
  have outside : ∀ c ∈ '[' :: inner ++ [']'], c ≠ ' ' := List.forall_mem_ne'.2 (by simp [spaces])
  refine ⟨List.filter_eq_self.2 fun c hc => bne_iff_ne.2 (outside c hc), ?_⟩
  have positive := List.length_pos_of_ne_nil nonempty
  simp only [List.length_append, List.length_cons, List.length_nil]
  omega

theorem row_forall_mem {row : List Text} (h : ∀ t ∈ row, IsEntry t) : ∀ c ∈ join [','] row, c ∉ ['[', ']', ';', ' '] := by
  refine join_forall_mem (by decide) fun t ht c hc mem => (h t ht).plain c hc ?_
  simp only [List.mem_cons, List.not_mem_nil, or_false] at mem ⊢
  tauto

section

variable {rows : List (List Text)} (nonempty : rows ≠ []) (entries : ∀ row ∈ rows, row ≠ [] ∧ ∀ t ∈ row, IsEntry t)

include nonempty entries

theorem rowTexts_nestedLiteral : rowTexts (nestedLiteral rows) = .ok (rows.map (join [','])) := by
  set inner := join [';'] (rows.map fun row => '[' :: join [','] row ++ [']']) with joined
  have first : inner.head? = some '[' := by
    obtain ⟨row, rest, rfl⟩ := List.exists_cons_of_ne_nil nonempty
    cases rest <;> simp [joined, join, List.intercalate]
  have separate : inner.splitOn ';' = rows.map fun row => '[' :: join [','] row ++ [']'] := by
    refine List.splitOn_intercalate ';' (fun t ht => ?_) (by simpa using nonempty)
    obtain ⟨row, mem, rfl⟩ := List.mem_map.1 ht
    have inside : ';' ∉ join [','] row := fun semicolon =>
      row_forall_mem (entries row mem).2 ';' semicolon (by decide)
    simp [inside]
  have spaces : ' ' ∉ inner := List.forall_mem_ne'.1 <| join_forall_mem (by decide) fun t ht => by
    obtain ⟨row, mem, rfl⟩ := List.mem_map.1 ht
    have inside : ' ' ∉ join [','] row := fun space => row_forall_mem (entries row mem).2 ' ' space (by decide)
    exact List.forall_mem_ne'.2 (by simp [inside])
  obtain ⟨cleaned, long⟩ := enclosed_spec spaces (by rintro none; simp [none] at first)
  rw [nestedLiteral, ← joined]
  simp only [rowTexts, cleaned, if_neg long, between?_enclosed, first, if_true, separate]
  exact Lists.mapM_zipIdx_eq_ok fun row _ i => by simp only [between?_enclosed]

theorem rowTexts_flatLiteral : rowTexts (flatLiteral rows) = .ok (rows.map (join [','])) := by
  set inner := join [';'] (rows.map (join [','])) with joined
  have rowsNonempty : ∀ t ∈ rows.map (join [',']), t ≠ [] := fun t ht => by
    obtain ⟨row, mem, rfl⟩ := List.mem_map.1 ht
    exact join_ne_nil (entries row mem).1 (fun u hu => ((entries row mem).2 u hu).nonempty) ','
  have plain : ∀ c ∈ inner, c ∉ ['[', ']', ' '] := join_forall_mem (by decide) fun t ht c hc => by
    obtain ⟨row, mem, rfl⟩ := List.mem_map.1 ht
    have outside := row_forall_mem (entries row mem).2 c hc
    simp only [List.mem_cons, List.not_mem_nil, or_false] at outside ⊢
    tauto
  have first : inner.head? ≠ some '[' := fun bracket => plain '[' (List.mem_of_head? bracket) (by decide)
  have separate : inner.splitOn ';' = rows.map (join [',']) := by
    refine List.splitOn_intercalate ';' (fun t ht => ?_) (by simpa using nonempty)
    obtain ⟨row, mem, rfl⟩ := List.mem_map.1 ht
    exact fun semicolon => row_forall_mem (entries row mem).2 ';' semicolon (by decide)
  have spaces : ' ' ∉ inner := fun space => plain ' ' space (by decide)
  obtain ⟨cleaned, long⟩ := enclosed_spec spaces (join_ne_nil (by simpa using nonempty) rowsNonempty ';')
  rw [flatLiteral, ← joined]
  simp only [rowTexts, cleaned, if_neg long, between?_enclosed, if_neg first, separate]

end

/-! ## Reading -/

variable {α β : Type} {readCell : Text → Outcome α}

/-- Whatever reads the text of every entry reads a literal entry by entry, if it is cut into rows of one width. -/
theorem readRows_of_rowTexts (shown : β → Text) (value : β → α) {literal : Text} {rows : List (List β)} {width : Nat}
    (nonempty : rows ≠ []) (positive : 0 < width) (widths : ∀ row ∈ rows, row.length = width)
    (entries : ∀ row ∈ rows, ∀ b ∈ row, IsEntry (shown b))
    (read : ∀ row ∈ rows, ∀ b ∈ row, readCell (shown b) = .ok (value b))
    (cut : rowTexts literal = .ok (rows.map fun row => join [','] (row.map shown))) :
    readRows readCell literal = .ok (rows.map (·.map value)) := by
  have mapped : ∀ row ∈ rows.map (·.map value), row.length = width := by
    rintro _ mapped
    obtain ⟨row, mem, rfl⟩ := List.mem_map.1 mapped
    rw [List.length_map, widths row mem]
  refine Outcome.bind_eq_ok.2 ⟨_, cut, Outcome.bind_eq_ok.2 ⟨rows.map (·.map value), ?_, ?_⟩⟩
  · refine Lists.mapM_zipIdx_eq_ok fun row mem i => ?_
    have separate : (join [','] (row.map shown)).splitOn ',' = row.map shown := by
      have some : row ≠ [] := List.ne_nil_of_length_pos (widths row mem ▸ positive)
      refine List.splitOn_intercalate ',' (fun t ht => ?_) (by simpa using some)
      obtain ⟨b, member, rfl⟩ := List.mem_map.1 ht
      exact fun comma => (entries row mem b member).plain ',' comma (by decide)
    simp only [separate]
    refine Lists.mapM_zipIdx_eq_ok fun b member j => ?_
    have opening : '[' ∉ shown b := fun bracket => (entries row mem b member).plain '[' bracket (by decide)
    have closing : ']' ∉ shown b := fun bracket => (entries row mem b member).plain ']' bracket (by decide)
    simp [readEntry, opening, closing, (entries row mem b member).nonempty, read row mem b member]
  · simp only [length_headD (by simpa using nonempty) mapped]
    split
    next row i found =>
      -- A row that is found is one of the rows, and so has the width of the first one.
      have uneven := List.find?_some found
      simp [mapped row (List.fst_mem_of_mem_zipIdx (List.mem_of_find?_eq_some found))] at uneven
    next => rfl

/-- Whatever reads the text of every cell reads the text of a matrix cell by cell. -/
theorem readRows_text {value : Gaussian → α} (h : ∀ z, readCell z.text = .ok (value z)) (m : Mat) :
    readRows readCell m.text = .ok (m.rows.map (·.map value)) := by
  refine readRows_of_rowTexts Gaussian.text value m.rows_ne_nil m.width_pos (fun _ => length_of_mem_rows)
    (fun _ _ z _ => isEntry_text z) (fun _ _ z _ => h z) ?_
  rw [text_eq_nestedLiteral, rowTexts_nestedLiteral (by simpa using m.rows_ne_nil) ?_, List.map_map]
  · rfl
  · rintro _ mapped
    obtain ⟨row, mem, rfl⟩ := List.mem_map.1 mapped
    refine ⟨by simpa using ne_nil_of_mem_rows mem, fun t ht => ?_⟩
    obtain ⟨z, -, rfl⟩ := List.mem_map.1 ht
    exact isEntry_text z

end Mat

end Reckoner
