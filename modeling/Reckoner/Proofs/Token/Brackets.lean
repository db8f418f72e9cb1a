import Reckoner.Line.Names
import Reckoner.Proofs.Token.Weight
/-!
# Checked brackets

Where the square brackets of a text balance, the reader finds the end of every matrix literal and meets no closing bracket
outside one, so that it stops at no bracket (`tokenize_sparesBrackets`). It may still stop elsewhere.
-/

namespace Reckoner

open Line
open Outcome (FailsOnly)

/-! ## Balanced texts -/

namespace Line

/-- A square bracket. -/
def isBracket (c : Char) : Bool := c == '[' || c == ']'

theorem isBracket_iff {c : Char} : isBracket c = true ↔ c = '[' ∨ c = ']' := by simp [isBracket]

variable {s t : Text} {depth : Nat}

/-- Characters that are no square brackets leave the depth as it is. -/
theorem bracketDepth?_append (h : ∀ c ∈ s, isBracket c = false) (depth : Nat) (t : Text) :
    bracketDepth? depth (s ++ t) = bracketDepth? depth t := by
  induction s with
  | nil => rfl
  | cons c s ih =>
    obtain ⟨first, later⟩ := List.forall_mem_cons.1 h
    simp only [isBracket, Bool.or_eq_false_iff, beq_eq_false_iff_ne] at first
    rw [List.cons_append, bracketDepth?, if_neg first.1, if_neg first.2, ih later]

/-- Blanks do not count. -/
theorem bracketDepth?_squeeze (t : Text) : bracketDepth? depth (Text.squeeze t) = bracketDepth? depth t := by
  induction t generalizing depth with
  | nil => rfl
  | cons c t ih =>
    cases blank : CharClass.isBlank c with
    | true =>
      have plain : isBracket c = false := by
        by_contra bracket
        rcases isBracket_iff.1 (Bool.not_eq_false _ ▸ bracket) with rfl | rfl <;> exact absurd blank (by decide)
      have dropped : Text.squeeze (c :: t) = Text.squeeze t := by simp [Text.squeeze, blank]
      rw [dropped, ih, ← bracketDepth?_append (s := [c]) (List.forall_mem_singleton.2 plain)]
      rfl
    | false =>
      have kept : Text.squeeze (c :: t) = c :: Text.squeeze t := by simp [Text.squeeze, blank]
      simp only [kept, bracketDepth?, ih]

theorem checkBrackets_eq_ok {source : Text} : checkBrackets t source = .ok () ↔ bracketDepth? 0 t = some 0 := by
  rw [checkBrackets]
  split
  next balanced => exact ⟨fun _ => balanced, fun _ => rfl⟩
  next unbalanced => exact ⟨nofun, fun balanced => absurd balanced unbalanced⟩

/-- Open brackets that are closed in the end are closed somewhere, and what follows balances. -/
theorem exists_closingBracket (inside : 0 < depth) (h : bracketDepth? depth t = some 0) :
    ∃ n, Token.closingBracket? depth t = some n ∧ bracketDepth? 0 (t.drop n) = some 0 := by
  induction t generalizing depth with
  | nil =>
    cases h
    cases inside
  | cons c t ih =>
    -- A bracket that is found in the rest is found one character further on.
    have next : ∀ {d}, 0 < d → bracketDepth? d t = some 0 → ∃ n, (Token.closingBracket? d t).map (· + 1) = some n ∧
        bracketDepth? 0 ((c :: t).drop n) = some 0 := by
      intro d inside h
      obtain ⟨n, found, balanced⟩ := ih inside h
      exact ⟨n + 1, by rw [found]; rfl, balanced⟩
    rw [bracketDepth?] at h
    unfold Token.closingBracket?
    split at h
    next opening =>
      rw [if_pos opening]
      exact next (Nat.succ_pos depth) h
    next other =>
      rw [if_neg other]
      split at h
      next closing =>
        rw [if_pos closing]
        split at h
        · cases h
        next =>
          split
          next last =>
            obtain rfl : depth = 1 := by omega
            exact ⟨1, rfl, h⟩
          next inner => exact next (by omega) h
      next plain =>
        rw [if_neg plain]
        exact next inside h

end Line

/-! ## Faults at brackets -/

/-- Whether a fault in a text without blanks blames a square bracket: one that has no match, or one that stands where the
fault is. -/
def Fault.blamesBracket (t : Text) : Fault → Bool
  | .unclosedBracket .. | .unbalancedBrackets .. => true
  | .strayCharacter position c _ => isBracket c || t[position]?.any isBracket
  | .unopenedParenthesis position _ | .misplacedToken position _ => t[position]?.any isBracket
  | _ => false

/-- Whether a failure is a fault that blames no square bracket of the text. -/
def Failure.sparesBrackets (t : Text) : Failure → Bool
  | .fault f => !f.blamesBracket t
  | _ => false

namespace Token

variable {whole source rest : Text} {position depth n : Nat} {c : Char} {form : Kind} {last : Option Kind}

theorem isBracket_of_level {d : Char} (level : Poly.depthAfter 0 d = 0) : isBracket d = false := by
  by_contra bracket
  rcases isBracket_iff.1 (Bool.not_eq_false _ ▸ bracket) with rfl | rfl <;> cases level

/-- A lexeme that is no matrix literal has no square bracket. -/
theorem Chunk.noBracket {t : Text} (h : Chunk form t) (noMatrix : form ≠ .operand .matrix) :
    ∀ d ∈ t, isBracket d = false := by
  cases h with
  | word _ all | called all => exact fun d mem => isBracket_of_level (Text.depthAfter_of_isWord (all d mem)).1
  | matrix => exact absurd rfl noMatrix
  | sign which => rcases which with ⟨-, rfl⟩ | ⟨-, rfl⟩ <;> exact List.forall_mem_singleton.2 rfl
  | operator _ level => exact fun d mem => isBracket_of_level (level d mem)
  | opening | closing => exact List.forall_mem_singleton.2 rfl

/-- A lexeme at the start of a balanced text begins with a bracket only if it is a matrix literal, and what follows it
balances. -/
theorem balanced_of_lexeme? (balanced : bracketDepth? 0 (c :: rest) = some 0) (found : lexeme? c rest = some (form, n)) :
    (form ≠ .operand .matrix → isBracket c = false) ∧ bracketDepth? 0 (rest.drop n) = some 0 := by
  by_cases matrix : form = .operand .matrix
  · refine ⟨fun other => absurd matrix other, ?_⟩
    subst matrix
    cases lexeme_of_lexeme? found with
    | matrix bracket closing =>
      subst bracket
      obtain ⟨m, found, later⟩ := exists_closingBracket Nat.one_pos balanced
      cases closing.symm.trans found
      exact later
    | mark _ _ noOperand _ => exact absurd rfl (noOperand _)
  · have plain := (chunk_of_lexeme? found).noBracket matrix
    refine ⟨fun _ => plain c List.mem_cons_self, ?_⟩
    rw [← bracketDepth?_append plain, List.cons_append, List.take_append_drop]
    exact balanced

/-- Where there is no lexeme there is no bracket, if the text balances. -/
theorem noBracket_of_lexeme? (balanced : bracketDepth? 0 (c :: rest) = some 0) (none : lexeme? c rest = none) :
    isBracket c = false := by
  by_contra bracket
  rcases isBracket_iff.1 (Bool.not_eq_false _ ▸ bracket) with rfl | rfl
  · obtain ⟨n, found, -⟩ := exists_closingBracket Nat.one_pos balanced
    rw [lexeme?, if_pos rfl, found] at none
    cases none
  · cases balanced

theorem nesting_sparesBrackets (here : whole[position]? = some c) (plain : form ≠ .operand .matrix → isBracket c = false) :
    FailsOnly (Failure.sparesBrackets whole) (nesting source position depth form) := by
  unfold nesting
  split
  · exact .ok _
  · split
    · exact .refuse (by simp [Failure.sparesBrackets, Fault.blamesBracket, here, plain nofun])
    · exact .ok _
  · exact .ok _

theorem scan_sparesBrackets {whole source : Text} {position depth : Nat} {last : Option Kind} {t : Text}
    (placed : whole.drop position = t) (balanced : bracketDepth? 0 t = some 0) :
    FailsOnly (Failure.sparesBrackets whole) (scan source position depth last t) := by
  match t with
  | [] =>
    rw [scan]
    split
    · exact .refuse rfl
    · split
      · exact .refuse rfl
      · exact .ok _
  | c :: rest =>
    have here : whole[position]? = some c := by rw [← List.head?_drop, placed, List.head?_cons]
    have after : ∀ n, whole.drop (position + n + 1) = rest.drop n := by
      intro n
      rw [Nat.add_assoc, ← List.drop_drop, placed, List.drop_succ_cons]
    rw [scan]
    split
    next none =>
      have plain := noBracket_of_lexeme? balanced none
      have notOpening : c ≠ '[' := fun opening => absurd plain (by simp [isBracket, opening])
      rw [if_neg notOpening]
      exact .refuse (by simp [Failure.sparesBrackets, Fault.blamesBracket, here, plain])
    next form n found =>
      obtain ⟨plain, later⟩ := balanced_of_lexeme? balanced found
      have plain : resolve last form ≠ .operand .matrix → isBracket c = false := fun other =>
        plain fun matrix => other (by rw [matrix]; rfl)
      refine .bind (nesting_sparesBrackets here plain) fun depth' _ => ?_
      split
      next misplaced =>
        have other : resolve last form ≠ .operand .matrix := by
          intro matrix
          simp [matrix, fits] at misplaced
        exact .refuse (by simp [Failure.sparesBrackets, Fault.blamesBracket, here, plain other])
      · exact .bind (scan_sparesBrackets (after n) later) fun _ _ => .ok _
termination_by t.length
decreasing_by simp only [List.length_drop, List.length_cons]; omega

/-- Where the brackets of a text balance, reading it stops at none of them. -/
theorem tokenize_sparesBrackets {t source : Text} (checked : checkBrackets t source = .ok ()) :
    FailsOnly (Failure.sparesBrackets (Text.squeeze t)) (tokenize t source) := by
  have balanced : bracketDepth? 0 (Text.squeeze t) = some 0 := by
    rw [bracketDepth?_squeeze, checkBrackets_eq_ok.1 checked]
  simp only [tokenize]
  split
  · exact .refuse rfl
  · exact scan_sparesBrackets rfl balanced

end Token

end Reckoner
