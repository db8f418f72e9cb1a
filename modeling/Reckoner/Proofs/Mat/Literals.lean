import Mathlib.Data.Fin.VecNotation
import Reckoner.Datum.Part
import Reckoner.Proofs.Mat.Reading
/-!
# Matrix literals

A literal of a grid of texts is the matrix of the numbers that these texts are, in the same places, whether its rows have
brackets or not; a single row and a single column need none. Main statement: every such literal is read, and the text
of a matrix is read as the matrix itself.
-/

namespace Reckoner

/-! ## Entries -/

namespace Gaussian

open Text Rational

theorem parseEntry_of_parse {t : Text} {z : Gaussian} (small : lower t = t) (spaces : withoutSpaces t = t)
    (h : parse t = .ok z) : parseEntry t = .ok z := by
  cases unit : mentionsUnit t with
  | true => simp [parseEntry, parse?, unit, h, Except.toOption]
  | false =>
    have real : t.contains 'i' = false := by rwa [mentionsUnit, small] at unit
    simp only [parse, spaces, small, real] at h
    rw [parseEntry, parse?, if_neg (by simp [unit])]
    split at h
    next => cases h
    next => simpa using h

/-- Whatever shows a number shows an entry that is the number. -/
theorem parseEntry_textWith {render : Rat → Text} {fraction : Rat → Bool} (h : Renders render fraction) (z : Gaussian) :
    parseEntry (z.textWith render) = .ok z :=
  parseEntry_of_parse (lower_eq_self (textWith_forall_mem h z (by decide)))
    (List.filter_eq_self.2 (textWith_forall_mem h z (by decide))) (parse_textWith h z)

end Gaussian

namespace Mat

open Text

/-! ## Grids of texts -/

variable {r c : Nat}

/-- The rows of a grid. -/
def rowsOf {α : Type} (cells : Fin r → Fin c → α) : List (List α) := List.ofFn fun i => List.ofFn (cells i)

theorem rowsOf_map {α β : Type} (f : α → β) (cells : Fin r → Fin c → α) :
    (rowsOf cells).map (·.map f) = rowsOf fun i j => f (cells i j) := by
  simp [rowsOf, List.map_ofFn, Function.comp_def]

/-- The matrix with the given cells. -/
def ofCells (hr : 0 < r) (hc : 0 < c) (cells : Fin r → Fin c → Gaussian) : Mat := ⟨r, c, hr, hc, Grid.ofFn cells⟩

theorem rows_ofCells (hr : 0 < r) (hc : 0 < c) (cells : Fin r → Fin c → Gaussian) :
    (ofCells hr hc cells).rows = rowsOf cells := by
  simp [rows, ofCells, Grid.toLists, rowsOf]

theorem itemAt_natCast {α : Type} {items : List α} {i : Nat} (h : i < items.length) :
    itemAt items (i : Int) = .ok items[i] := by
  have place : ¬((i : Int) < 0) := (Int.natCast_nonneg i).not_gt
  simp [itemAt, place, h]

theorem cellAt_ofCells (hr : 0 < r) (hc : 0 < c) (cells : Fin r → Fin c → Gaussian) (i : Fin r) (j : Fin c) :
    Datum.cellAt (ofCells hr hc cells) (.integer i.val) (.integer j.val) = .ok (Datum.cell (cells i j)) := by
  have row : (ofCells hr hc cells).rowAt i.val = .ok (List.ofFn (cells i)) := by
    rw [rowAt, rows_ofCells, rowsOf, itemAt_natCast (by simp)]
    simp
  have cell : itemAt (List.ofFn (cells i)) (j.val : Int) = .ok (cells i j) := by
    rw [itemAt_natCast (by simp)]
    simp
  exact Outcome.bind_eq_ok.2 ⟨i.val, rfl, Outcome.bind_eq_ok.2 ⟨_, row, Outcome.bind_eq_ok.2 ⟨j.val, rfl,
    Outcome.bind_eq_ok.2 ⟨_, cell, rfl⟩⟩⟩⟩

/-! ## Reading -/

/-- A literal that is cut into the rows of a grid of entries is read entry by entry. -/
theorem readRows_of_cells {α : Type} {readCell : Text → Outcome α} (hr : 0 < r) (hc : 0 < c) {cells : Fin r → Fin c → Text}
    {values : Fin r → Fin c → α} (entries : ∀ i j, IsEntry (cells i j)) (read : ∀ i j, readCell (cells i j) = .ok (values i j))
    {literal : Text} (cut : rowTexts literal = .ok ((rowsOf cells).map (join [',']))) :
    readRows readCell literal = .ok (rowsOf values) := by
  -- The places of the grid stand for its entries: two entries of one text may be told apart by them only.
  set places : List (List (Fin r × Fin c)) := rowsOf Prod.mk
  have texts : (rowsOf cells).map (join [',']) = places.map fun row => join [','] (row.map fun b => cells b.1 b.2) := by
    rw [← rowsOf_map (fun b : Fin r × Fin c => cells b.1 b.2) Prod.mk, List.map_map]
    rfl
  have widths : ∀ row ∈ places, row.length = c := by
    rintro _ mem
    obtain ⟨i, rfl⟩ := List.mem_ofFn.1 mem
    exact List.length_ofFn
  have nonempty : places ≠ [] := List.ne_nil_of_length_pos (by simpa [places, rowsOf] using hr)
  rw [← rowsOf_map (fun b : Fin r × Fin c => values b.1 b.2) Prod.mk]
  exact readRows_of_rowTexts (fun b : Fin r × Fin c => cells b.1 b.2) (fun b => values b.1 b.2) nonempty hc
    widths (fun _ _ b _ => entries b.1 b.2) (fun _ _ b _ => read b.1 b.2) (texts ▸ cut)

/-- A literal that is cut into the rows of a grid of entries is the matrix of their numbers. -/
theorem parse_of_rowTexts (hr : 0 < r) (hc : 0 < c) {cells : Fin r → Fin c → Text} {values : Fin r → Fin c → Gaussian}
    (entries : ∀ i j, IsEntry (cells i j)) (read : ∀ i j, Gaussian.parseEntry (cells i j) = .ok (values i j))
    {literal : Text} (cut : rowTexts literal = .ok ((rowsOf cells).map (join [',']))) :
    parse literal = .ok (ofCells hr hc values) := by
  rw [parse, readRows_of_cells hr hc entries read cut, ← rows_ofCells hr hc]
  exact ofRows_rows _

theorem parse_text (m : Mat) : parse m.text = .ok m := by
  have cellsRead := readRows_text (Gaussian.parseEntry_textWith Rational.renders_text) m
  have same : m.rows.map (·.map fun z => z) = m.rows := by simp
  rw [parse, cellsRead, same]
  exact ofRows_rows m

/-- The text of a matrix is read as the matrix, and a literal of a grid of entries as the matrix whose cell at any place
is the number that the entry at that place is, with brackets around its rows or without. -/
theorem parse_literals (m : Mat) (hr : 0 < r) (hc : 0 < c) {cells : Fin r → Fin c → Text}
    {values : Fin r → Fin c → Gaussian} (entries : ∀ i j, IsEntry (cells i j))
    (read : ∀ i j, Gaussian.parseEntry (cells i j) = .ok (values i j)) :
    parse m.text = .ok m ∧
      ∃ n, parse (nestedLiteral (rowsOf cells)) = .ok n ∧ parse (flatLiteral (rowsOf cells)) = .ok n ∧
        n.shape = (r, c) ∧ ∀ i j, Datum.cellAt n (.integer i.val) (.integer j.val) = .ok (Datum.cell (values i j)) := by
  have nonempty : rowsOf cells ≠ [] := List.ne_nil_of_length_pos (by simpa [rowsOf] using hr)
  have rowEntries : ∀ row ∈ rowsOf cells, row ≠ [] ∧ ∀ t ∈ row, IsEntry t := by
    rintro _ mem
    obtain ⟨i, rfl⟩ := List.mem_ofFn.1 mem
    refine ⟨List.ne_nil_of_length_pos (by simpa using hc), fun t ht => ?_⟩
    obtain ⟨j, rfl⟩ := List.mem_ofFn.1 ht
    exact entries i j
  refine ⟨parse_text m, ofCells hr hc values, ?_, ?_, rfl, cellAt_ofCells hr hc values⟩
  · exact parse_of_rowTexts hr hc entries read (rowTexts_nestedLiteral nonempty rowEntries)
  · exact parse_of_rowTexts hr hc entries read (rowTexts_flatLiteral nonempty rowEntries)

/-- A row with a sum and a signed unit as its entries, and the text of a matrix of one cell. -/
theorem parse_literals_row :
    (0 < 1 ∧ 0 < 2 ∧ (∀ i j, IsEntry (![!["2+3i".toList, "-i".toList]] i j)) ∧
      ∀ i j, Gaussian.parseEntry (![!["2+3i".toList, "-i".toList]] i j) = .ok (![![⟨2, 3⟩, ⟨0, -1⟩]] i j)) ∧
      parse (ofCells Nat.one_pos Nat.one_pos fun _ _ => ⟨1 / 2, -3⟩).text =
        .ok (ofCells Nat.one_pos Nat.one_pos fun _ _ => ⟨1 / 2, -3⟩) ∧
      ∃ n, parse (nestedLiteral (rowsOf ![!["2+3i".toList, "-i".toList]])) = .ok n ∧
        parse (flatLiteral (rowsOf ![!["2+3i".toList, "-i".toList]])) = .ok n ∧ n.shape = (1, 2) ∧
          ∀ i j : Fin _, Datum.cellAt n (.integer i.val) (.integer j.val) =
            .ok (Datum.cell (![![⟨2, 3⟩, ⟨0, -1⟩]] i j)) :=
  have shown : ∀ i j, (![![⟨2, 3⟩, ⟨0, -1⟩]] i j : Gaussian).text = ![!["2+3i".toList, "-i".toList]] i j := by
    decide +kernel
  have entries : ∀ i j, IsEntry (![!["2+3i".toList, "-i".toList]] i j) := by
    intro i j
    rw [← shown]
    exact isEntry_text _
  have read : ∀ i j, Gaussian.parseEntry (![!["2+3i".toList, "-i".toList]] i j) = .ok (![![⟨2, 3⟩, ⟨0, -1⟩]] i j) := by
    intro i j
    rw [← shown]
    exact Gaussian.parseEntry_textWith Rational.renders_text _
  ⟨⟨Nat.one_pos, Nat.two_pos, entries, read⟩, parse_literals _ Nat.one_pos Nat.two_pos entries read⟩

end Mat

end Reckoner
