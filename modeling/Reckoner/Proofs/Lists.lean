import Mathlib.Data.List.TakeDrop
import Reckoner.Proofs.Outcome
/-!
# Lists

Cutting a list where a property ends, joining lists, and running an outcome over the items of a list, which may be
numbered.
-/

namespace Reckoner.Lists

variable {α β γ : Type}

/-- Items that have a property, above others of which the first has not, are cut off at their end. -/
theorem span_append {p : α → Bool} {front rest : List α} (h : ∀ a ∈ front, p a = true)
    (stop : ∀ a ∈ rest.head?, p a = false) : (front ++ rest).span p = (front, rest) := by
  rw [List.span_eq_takeWhile_dropWhile, List.takeWhile_append_of_pos h, List.dropWhile_append_of_pos h]
  cases rest with
  | nil => simp
  | cons a rest => simp [stop a rfl]

/-- Items that have a property are cut off at the front, down to the first one that has not. -/
theorem exists_span (p : α → Bool) (as : List α) : ∃ front rest, as.span p = (front, rest) ∧ as = front ++ rest ∧
    ∀ a ∈ front, p a = true :=
  ⟨as.takeWhile p, as.dropWhile p, List.span_eq_takeWhile_dropWhile _ _, List.takeWhile_append_dropWhile.symm,
    fun a mem => List.all_eq_true.1 List.all_takeWhile a mem⟩

/-- Where every item gives a value, the list gives the values. -/
theorem mapM_eq_ok {f : α → Outcome β} {g : α → β} {as : List α} (h : ∀ a ∈ as, f a = .ok (g a)) :
    as.mapM f = .ok (as.map g) := by
  induction as with
  | nil => rfl
  | cons a as ih =>
    obtain ⟨first, later⟩ := List.forall_mem_cons.1 h
    rw [List.mapM_cons, first, ih later]
    rfl

theorem exists_of_mem_mapM {f : α → Outcome β} {as : List α} {bs : List β} (h : as.mapM f = .ok bs) {b : β}
    (mem : b ∈ bs) : ∃ a ∈ as, f a = .ok b := by
  induction as generalizing bs with
  | nil =>
    cases h
    cases mem
  | cons a as ih =>
    rw [List.mapM_cons] at h
    obtain ⟨c, first, h⟩ := Outcome.bind_eq_ok.1 h
    obtain ⟨cs, later, h⟩ := Outcome.bind_eq_ok.1 h
    cases h
    rcases List.mem_cons.1 mem with rfl | mem
    · exact ⟨a, List.mem_cons_self, first⟩
    · obtain ⟨d, hd, read⟩ := ih later mem
      exact ⟨d, List.mem_cons_of_mem _ hd, read⟩

theorem mem_of_mapM_eq_ok {f : α → Outcome β} {as : List α} {bs : List β} (h : as.mapM f = .ok bs) {a : α} (mem : a ∈ as) :
    ∃ b ∈ bs, f a = .ok b := by
  induction as generalizing bs with
  | nil => cases mem
  | cons c as ih =>
    rw [List.mapM_cons] at h
    obtain ⟨b, first, h⟩ := Outcome.bind_eq_ok.1 h
    obtain ⟨cs, later, h⟩ := Outcome.bind_eq_ok.1 h
    cases h
    rcases List.mem_cons.1 mem with rfl | mem
    · exact ⟨b, List.mem_cons_self, first⟩
    · obtain ⟨d, hd, read⟩ := ih later mem
      exact ⟨d, List.mem_cons_of_mem _ hd, read⟩

/-- Where every item gives a value, numbered items whose numbers do not matter give the values. -/
theorem mapM_zipIdx_eq_ok {f : β × Nat → Outcome γ} {h : α → β} {g : α → γ} {as : List α}
    (each : ∀ a ∈ as, ∀ i, f (h a, i) = .ok (g a)) : (as.map h).zipIdx.mapM f = .ok (as.map g) := by
  have numbered : as.zipIdx.mapM (f ∘ Prod.map h id) = .ok (as.zipIdx.map (g ∘ Prod.fst)) :=
    mapM_eq_ok fun e he => each e.1 (List.fst_mem_of_mem_zipIdx he) e.2
  rw [List.zipIdx_map, List.mapM_map, numbered, ← List.map_map, List.zipIdx_map_fst]

/-- What holds of the empty list and of two lists with `a` between them, if it holds of the two, holds of lists joined
by `a`, if it holds of each. -/
theorem intercalate_induction {p : List α → Prop} {a : α} (nil : p []) (append : ∀ {s t}, p s → p t → p (s ++ a :: t))
    {ts : List (List α)} (h : ∀ t ∈ ts, p t) : p ([a].intercalate ts) := by
  induction ts with
  | nil => exact nil
  | cons t ts ih =>
    obtain ⟨first, later⟩ := List.forall_mem_cons.1 h
    cases ts with
    | nil => rwa [List.intercalate_singleton]
    | cons u ts =>
      rw [List.intercalate_cons_cons, List.append_assoc]
      exact append first (ih later)

/-- Where a part stands among parts that are joined by `a`. -/
theorem exists_of_mem_intercalate {a : α} {ts : List (List α)} {t : List α} (h : t ∈ ts) :
    ∃ before after, [a].intercalate ts = before ++ (t ++ after) ∧ (before = [] ∨ ∃ front, before = front ++ [a]) ∧
      (after = [] ∨ ∃ rest, after = a :: rest) := by
  induction ts with
  | nil => cases h
  | cons u ts ih =>
    cases ts with
    | nil =>
      obtain rfl := List.mem_singleton.1 h
      exact ⟨[], [], by simp, .inl rfl, .inl rfl⟩
    | cons v ts =>
      rw [List.intercalate_cons_cons]
      rcases List.mem_cons.1 h with rfl | later
      · exact ⟨[], a :: [a].intercalate (v :: ts), by simp, .inl rfl, .inr ⟨_, rfl⟩⟩
      · obtain ⟨before, after, joined, begins, ends⟩ := ih later
        refine ⟨u ++ [a] ++ before, after, by rw [joined, List.append_assoc _ before], .inr ?_, ends⟩
        rcases begins with rfl | ⟨front, rfl⟩
        · exact ⟨u, by simp⟩
        · exact ⟨u ++ [a] ++ front, by simp⟩

/-- A part of a list that is split at `a`, in its place. -/
theorem exists_of_mem_splitOn [BEq α] [LawfulBEq α] {a : α} {s t : List α} (h : s ∈ t.splitOn a) :
    ∃ before after, t = before ++ (s ++ after) ∧ (before = [] ∨ ∃ front, before = front ++ [a]) ∧
      (after = [] ∨ ∃ rest, after = a :: rest) := by
  have placed := exists_of_mem_intercalate (a := a) h
  rwa [List.intercalate_splitOn] at placed

/-- An outcome that gives at least the values of another one gives the same list. -/
theorem mapM_mono {f g : α → Outcome β} (h : ∀ a b, f a = .ok b → g a = .ok b) {as : List α} {bs : List β}
    (values : as.mapM f = .ok bs) : as.mapM g = .ok bs := by
  induction as generalizing bs with
  | nil => exact values
  | cons a as ih =>
    rw [List.mapM_cons] at values ⊢
    obtain ⟨b, first, values⟩ := Outcome.bind_eq_ok.1 values
    obtain ⟨cs, later, values⟩ := Outcome.bind_eq_ok.1 values
    exact Outcome.bind_eq_ok.2 ⟨b, h a b first, Outcome.bind_eq_ok.2 ⟨cs, ih later, values⟩⟩

/-- Outcomes that agree on the items agree on the list. -/
theorem mapM_congr {f g : α → Outcome β} {as : List α} (h : ∀ a ∈ as, f a = g a) : as.mapM f = as.mapM g := by
  induction as with
  | nil => rfl
  | cons a as ih =>
    obtain ⟨first, later⟩ := List.forall_mem_cons.1 h
    rw [List.mapM_cons, List.mapM_cons, first, ih later]

/-- A list fails as one of its items does. -/
theorem exists_of_mapM_eq_error {f : α → Outcome β} {as : List α} {e : Failure} (h : as.mapM f = .error e) :
    ∃ a ∈ as, f a = .error e := by
  induction as with
  | nil => cases h
  | cons a as ih =>
    rw [List.mapM_cons] at h
    rcases Outcome.bind_eq_error.1 h with first | ⟨b, -, h⟩
    · exact ⟨a, List.mem_cons_self, first⟩
    · rcases Outcome.bind_eq_error.1 h with later | ⟨bs, -, h⟩
      · obtain ⟨c, mem, failed⟩ := ih later
        exact ⟨c, List.mem_cons_of_mem a mem, failed⟩
      · cases h

/-- Where there is one way to fail, a list fails exactly if one of its items does. -/
theorem mapM_eq_error_iff {f : α → Outcome β} {as : List α} {e : Failure} (only : ∀ a d, f a = .error d → d = e) :
    as.mapM f = .error e ↔ ∃ a ∈ as, f a = .error e := by
  refine ⟨exists_of_mapM_eq_error, ?_⟩
  rintro ⟨a, mem, failed⟩
  cases whole : as.mapM f with
  | error d =>
    obtain ⟨b, -, failed'⟩ := exists_of_mapM_eq_error whole
    rw [only b d failed']
  | ok bs =>
    induction as generalizing bs with
    | nil => cases mem
    | cons b as ih =>
      rw [List.mapM_cons] at whole
      obtain ⟨c, first, whole⟩ := Outcome.bind_eq_ok.1 whole
      obtain ⟨cs, later, -⟩ := Outcome.bind_eq_ok.1 whole
      rcases List.mem_cons.1 mem with rfl | mem
      · rw [first] at failed
        cases failed
      · exact absurd (ih mem cs later) (by simp)

end Reckoner.Lists

/-- The digits at the front of a text, in any script, and what follows them. -/
theorem Reckoner.Text.spanDigits_cut (t : Text) : ∃ ds rest, spanDigits t = (ds, rest) ∧ t = ds ++ rest ∧
    ∀ d ∈ ds, CharClass.isDigit d = true := Lists.exists_span CharClass.isDigit t
