import Reckoner.Line.Names
import Reckoner.Proofs.Gaussian.Reading
import Reckoner.Token.Lexer
/-!
# Texts that pass the checks of a line

Square brackets that match pass the check of brackets, and are found as one literal. Letters that stand alone and are
the imaginary unit are no names, so that there is none to look up.
-/

namespace Reckoner.Line

open CharClass Token

/-! ## Brackets -/

/-- Texts in which square brackets match. -/
inductive Balanced : Text → Prop where
  | nil : Balanced []
  | cons {c t} : c ≠ '[' → c ≠ ']' → Balanced t → Balanced (c :: t)
  | brackets {s t} : Balanced s → Balanced t → Balanced ('[' :: s ++ ']' :: t)

namespace Balanced

variable {s t : Text}

theorem of_forall (h : ∀ c ∈ t, c ≠ '[' ∧ c ≠ ']') : Balanced t := by
  induction t with
  | nil => exact nil
  | cons c t ih =>
    obtain ⟨⟨opening, closing⟩, later⟩ := List.forall_mem_cons.1 h
    exact cons opening closing (ih later)

theorem append (hs : Balanced s) (ht : Balanced t) : Balanced (s ++ t) := by
  induction hs with
  | nil => exact ht
  | cons opening closing _ ih => exact cons opening closing ih
  | @brackets u v hu _ _ ih =>
    rw [List.cons_append, List.cons_append, List.append_assoc, List.cons_append]
    exact brackets hu ih

theorem enclosed (h : Balanced t) : Balanced ('[' :: t ++ [']']) := brackets h nil

theorem join {c : Char} (opening : c ≠ '[') (closing : c ≠ ']') {ts : List Text} (h : ∀ t ∈ ts, Balanced t) :
    Balanced (Text.join [c] ts) :=
  Lists.intercalate_induction nil (fun hs ht => hs.append (cons opening closing ht)) h

/-- Matching brackets leave the depth as it is. -/
theorem bracketDepth? (h : Balanced t) (depth : Nat) (rest : Text) :
    bracketDepth? depth (t ++ rest) = Line.bracketDepth? depth rest := by
  induction h generalizing depth rest with
  | nil => rfl
  | cons opening closing _ ih => rw [List.cons_append, Line.bracketDepth?, if_neg opening, if_neg closing, ih]
  | @brackets s t _ _ ihs iht =>
    rw [List.cons_append, List.cons_append, List.append_assoc, Line.bracketDepth?, if_pos rfl, ihs, List.cons_append,
      Line.bracketDepth?, if_neg (by decide), if_pos rfl, if_neg (Nat.succ_ne_zero depth), iht]
    rfl

theorem checkBrackets (h : Balanced t) (source : Text) : checkBrackets t source = .ok () := by
  have depth : Line.bracketDepth? 0 (t ++ []) = some 0 := h.bracketDepth? 0 []
  rw [List.append_nil] at depth
  rw [Line.checkBrackets, if_pos depth]

/-- The bracket that closes an open one is found after matching brackets. -/
theorem closingBracket? (h : Balanced t) {depth : Nat} (inside : 0 < depth) (rest : Text) :
    closingBracket? depth (t ++ rest) = (Token.closingBracket? depth rest).map (· + t.length) := by
  induction h generalizing depth rest with
  | nil => simp
  | cons opening closing _ ih =>
    rw [List.cons_append, Token.closingBracket?, if_neg opening, if_neg closing, ih inside, Option.map_map]
    exact congrArg (Option.map · _) (funext fun n => Nat.add_assoc n _ 1)
  | @brackets s t _ _ ihs iht =>
    rw [List.cons_append, List.cons_append, List.append_assoc, Token.closingBracket?, if_pos rfl,
      ihs (Nat.succ_pos depth), List.cons_append, Token.closingBracket?, if_neg (by decide), if_pos rfl,
      if_neg (by omega), Nat.succ_sub_one, iht inside]
    simp only [Option.map_map]
    refine congrArg (Option.map · _) (funext fun n => ?_)
    simp
    omega

end Balanced

/-! ## Names -/

/-- Texts in which every letter stands alone and is the imaginary unit. -/
def LoneUnits : Text → Prop
  | [] => True
  | c :: rest => (isPlainLetter c = true → c = 'i' ∧ ∀ d ∈ rest.head?, isPlainLetter d = false) ∧ LoneUnits rest

namespace LoneUnits

variable {s t : Text}

theorem cons {c : Char} (h : isPlainLetter c = false) (ht : LoneUnits t) : LoneUnits (c :: t) :=
  ⟨fun letter => absurd (h.symm.trans letter) nofun, ht⟩

theorem prepend (h : ∀ c ∈ s, isPlainLetter c = false) (ht : LoneUnits t) : LoneUnits (s ++ t) := by
  induction s with
  | nil => exact ht
  | cons c s ih =>
    obtain ⟨first, later⟩ := List.forall_mem_cons.1 h
    exact cons first (ih later)

theorem append (hs : LoneUnits s) (ht : LoneUnits t) (apart : ∀ d ∈ t.head?, isPlainLetter d = false) :
    LoneUnits (s ++ t) := by
  induction s with
  | nil => exact ht
  | cons c s ih =>
    refine ⟨fun letter => ⟨(hs.1 letter).1, ?_⟩, ih hs.2⟩
    cases s with
    | nil => exact apart
    | cons d s => exact (hs.1 letter).2

theorem join {c : Char} (h : isPlainLetter c = false) {ts : List Text} (hts : ∀ t ∈ ts, LoneUnits t) :
    LoneUnits (Text.join [c] ts) :=
  Lists.intercalate_induction trivial (fun hs ht => hs.append (cons h ht) (by rintro _ ⟨⟩; exact h)) hts

/-- Each run of letters is the unit. -/
theorem letterRuns (h : LoneUnits t) : ∀ run ∈ letterRuns t, isUnit run.1 = true := by
  induction t with
  | nil => simp [Line.letterRuns]
  | cons c t ih =>
    rw [Line.letterRuns]
    split
    next letter =>
      -- The run ends after its first letter.
      obtain ⟨unit, apart⟩ := h.1 letter
      have alone : t.takeWhile isPlainLetter = [] ∧ t.dropWhile isPlainLetter = t := by
        cases t with
        | nil => exact ⟨rfl, rfl⟩
        | cons d t => simp [apart d rfl]
      rw [alone.1, alone.2, unit]
      exact List.forall_mem_cons.2 ⟨rfl, ih h.2⟩
    next => exact ih h.2

/-- A text without blanks whose letters are units has no names. -/
theorem names (h : LoneUnits t) (squeezed : Text.squeeze t = t) : names t = [] := by
  rw [Line.names, squeezed, List.map_eq_nil_iff, List.filter_eq_nil_iff]
  intro run mem
  simp [h.letterRuns run mem]

end LoneUnits

/-! ## Shown numbers -/

section

variable {render : Rat → Text} {fraction : Rat → Bool} (h : Rational.Renders render fraction) (z : Gaussian)
include h

theorem balanced_textWith : Balanced (z.textWith render) :=
  .of_forall (Gaussian.textWith_forall_mem h z (by decide))

theorem loneUnits_textWith : LoneUnits (z.textWith render) := by
  have letters : ∀ c ∈ Rational.marks, isPlainLetter c = false := Text.forall_of_all (by decide)
  obtain ⟨front, subset, shown⟩ := Gaussian.textWith_eq h z
  have numbers : ∀ c ∈ front, isPlainLetter c = false := fun c hc => letters c (subset hc)
  rcases shown with ⟨shown, -⟩ | shown
  · rw [shown, ← List.append_nil front]
    exact .prepend numbers trivial
  · rw [shown]
    exact .prepend numbers ⟨fun _ => ⟨rfl, nofun⟩, trivial⟩

theorem squeeze_textWith : Text.squeeze (z.textWith render) = z.textWith render :=
  List.filter_eq_self.2 (Gaussian.textWith_forall_mem h z (by decide))

end

end Reckoner.Line
