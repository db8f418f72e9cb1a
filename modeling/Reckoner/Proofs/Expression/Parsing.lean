import Reckoner.Proofs.Expression.Grammar
import Reckoner.Proofs.Token.Placement
/-!
# Accepted tokens are expressions

Every row of tokens in place is grammatical. Reading goes from left to right: the phrase read so far is a sum, and an
operator with an operand after it joins the right edge of that sum at the place where its strength puts it.
-/

namespace Reckoner.Expression

open Token

/-! ## Longer phrases -/

/-- A power joins the last atom of a phrase. -/
theorem Derives.snoc_power {l : Level} {e f : Expression} {ts us : List Token} (m : Mark) (h : Derives l e ts)
    (hf : Derives .unary f us) (notAtom : l ≠ .atom) :
    ∃ e', Derives l e' (ts ++ m.token (.operator .power) :: us) := by
  induction h with
  | @sum o m' e g ts vs additive left right _ ih =>
    obtain ⟨g', right'⟩ := ih nofun
    exact ⟨_, by simpa using Derives.sum (m := m') additive left right'⟩
  | ofProduct _ ih => exact (ih nofun).imp fun _ h => .ofProduct h
  | @product o m' e g ts vs multiplicative left right _ ih =>
    obtain ⟨g', right'⟩ := ih nofun
    exact ⟨_, by simpa using Derives.product (m := m') multiplicative left right'⟩
  | ofUnary _ ih => exact (ih nofun).imp fun _ h => .ofUnary h
  | @negate m' e ts _ ih => exact (ih nofun).elim fun _ h => ⟨_, .negate h⟩
  | ofPower _ ih => exact (ih nofun).imp fun _ h => .ofPower h
  | @power m' e g ts vs left right _ ih =>
    obtain ⟨g', right'⟩ := ih nofun
    exact ⟨_, by simpa using Derives.power (m := m') left right'⟩
  | ofAtom left _ => exact ⟨_, .power left hf⟩
  | operand | group | call => exact absurd rfl notAtom

/-- A product joins the last summand of a sum. -/
theorem Derives.snoc_product {e f : Expression} {ts us : List Token} {o : Operator} (m : Mark)
    (multiplicative : o.multiplicative = true) (h : Derives .sum e ts) (hf : Derives .unary f us) :
    ∃ e', Derives .sum e' (ts ++ m.token (.operator o) :: us) := by
  cases h with
  | @sum o' m' e g ts vs additive left right =>
    exact ⟨_, by simpa using Derives.sum (m := m') additive left (.product (m := m) multiplicative right hf)⟩
  | ofProduct left => exact ⟨_, .ofProduct (.product multiplicative left hf)⟩

/-- An operator and what follows it make a phrase longer. -/
theorem Derives.snoc {e f : Expression} {ts us : List Token} (o : Operator) (m : Mark) (h : Derives .sum e ts)
    (hf : Derives .unary f us) : ∃ e', Derives .sum e' (ts ++ m.token (.operator o) :: us) := by
  cases o with
  | plus | minus => exact ⟨_, .sum rfl h (.ofUnary hf)⟩
  | times | matrixTimes | divide | modulo => exact h.snoc_product m rfl hf
  | power => exact h.snoc_power m hf nofun

/-! ## Reading a row -/

/-- What can stand after a phrase inside `depth` open parentheses: nothing at the end, or the closing parenthesis with
the rest of the row. -/
def Ends : Nat → List Token → Prop
  | 0, ts => ts = []
  | depth + 1, ts => ∃ t rest, ts = t :: rest ∧ t.kind = .closing ∧ WellPlaced depth (some .closing) rest

/-- Where an operand is expected, a row of at most `n` tokens begins with a unary phrase. -/
def ReadsOperand (n : Nat) : Prop :=
  ∀ {depth : Nat} {last : Option Kind} {ts : List Token}, ts.length ≤ n → WellPlaced depth last ts →
    expectsOperand last = true → last ≠ some .function →
      ∃ e us kind rest, ts = us ++ rest ∧ Derives .unary e us ∧ expectsOperand (some kind) = false ∧
        WellPlaced depth (some kind) rest

/-- Where none is expected, a phrase that has been read goes on to its end in a row of at most `n` tokens. -/
def ReadsPhrase (n : Nat) : Prop :=
  ∀ {depth : Nat} {last : Option Kind} {e : Expression} {us ts : List Token}, ts.length ≤ n →
    WellPlaced depth last ts → expectsOperand last = false → Derives .sum e us →
      ∃ e' vs rest, ts = vs ++ rest ∧ Derives .sum e' (us ++ vs) ∧ Ends depth rest

/-- An operand and what follows it are a whole phrase. -/
theorem ReadsOperand.phrase {n depth : Nat} {last : Option Kind} {ts : List Token} (operand : ReadsOperand n)
    (phrase : ReadsPhrase n) (short : ts.length ≤ n) (h : WellPlaced depth last ts)
    (expects : expectsOperand last = true) (notCalled : last ≠ some .function) :
    ∃ e us rest, ts = us ++ rest ∧ Derives .sum e us ∧ Ends depth rest := by
  obtain ⟨e, us, kind, rest, rfl, derived, complete, placed⟩ := operand short h expects notCalled
  obtain ⟨e', vs, rest, rfl, derived, ends⟩ :=
    phrase (by rw [List.length_append] at short; omega) placed complete derived.sum_of_unary
  exact ⟨e', us ++ vs, rest, (List.append_assoc us vs rest).symm, derived, ends⟩

/-- What stands after an opening parenthesis is a phrase and the closing one. -/
theorem ReadsOperand.enclosed {n depth : Nat} {ts : List Token} (operand : ReadsOperand n) (phrase : ReadsPhrase n)
    (short : ts.length ≤ n) (h : WellPlaced (depth + 1) (some .opening) ts) :
    ∃ e us m rest, ts = us ++ Mark.token m .closing :: rest ∧ Derives .sum e us ∧
      WellPlaced depth (some .closing) rest := by
  obtain ⟨e, us, _, rfl, derived, ⟨kind, value, position⟩, rest, rfl, rfl, placed⟩ :=
    operand.phrase phrase short h rfl nofun
  exact ⟨e, us, ⟨value, position⟩, rest, rfl, derived, placed⟩

theorem ReadsOperand.succ {n : Nat} (operand : ReadsOperand n) (phrase : ReadsPhrase n) : ReadsOperand (n + 1) := by
  intro depth last ts short h expects notCalled
  cases ts with
  | nil => exact absurd (h.2.symm.trans expects) nofun
  | cons t rest =>
    obtain ⟨kind, value, position⟩ := t
    obtain ⟨begins, -, depth', nested, placed⟩ := h
    have shorter : rest.length ≤ n := Nat.le_of_succ_le_succ short
    rw [expects] at begins
    cases kind with
    | operand o =>
      cases nested
      exact ⟨_, [_], .operand o, rest, rfl, .ofPower (.ofAtom (.operand (m := ⟨value, position⟩))), rfl, placed⟩
    | negate =>
      cases nested
      obtain ⟨e, us, k, rest, rfl, derived, complete, placed⟩ := operand shorter placed rfl nofun
      exact ⟨_, _ :: us, k, rest, rfl, .negate (m := ⟨value, position⟩) derived, complete, placed⟩
    | opening =>
      cases nested
      obtain ⟨e, us, r, rest, rfl, derived, placed⟩ := operand.enclosed phrase shorter placed
      exact ⟨_, _ :: us ++ [r.token .closing], .closing, rest, by simp,
        .ofPower (.ofAtom (.group (l := ⟨value, position⟩) derived)), rfl, placed⟩
    | function =>
      cases nested
      cases rest with
      | nil => exact absurd placed.2 nofun
      | cons t' rest =>
        obtain ⟨kind', value', position'⟩ := t'
        -- Only an opening parenthesis can stand after a function.
        obtain ⟨-, opening, depth', nested, placed⟩ := placed
        cases opening rfl
        cases nested
        obtain ⟨e, us, r, rest, rfl, derived, placed⟩ := operand.enclosed phrase (Nat.le_of_succ_le shorter) placed
        exact ⟨_, _ :: _ :: us ++ [r.token .closing], .closing, rest, by simp,
          .ofPower (.ofAtom (.call (m := ⟨value, position⟩) (l := ⟨value', position'⟩) derived)), rfl, placed⟩
    | operator | closing => cases begins

theorem ReadsPhrase.succ {n : Nat} (operand : ReadsOperand n) (phrase : ReadsPhrase n) : ReadsPhrase (n + 1) := by
  intro depth last e us ts short h complete derived
  cases ts with
  | nil =>
    obtain ⟨rfl, -⟩ := h
    exact ⟨e, [], [], rfl, (List.append_nil us).symm ▸ derived, rfl⟩
  | cons t rest =>
    obtain ⟨kind, value, position⟩ := t
    obtain ⟨begins, -, depth', nested, placed⟩ := h
    have shorter : rest.length ≤ n := Nat.le_of_succ_le_succ short
    rw [complete] at begins
    cases kind with
    | operator o =>
      cases nested
      -- The operator and its operand join the phrase, and the longer phrase is read on.
      obtain ⟨f, vs, k, rest, rfl, joined, complete, placed⟩ := operand shorter placed rfl nofun
      obtain ⟨e', derived⟩ := derived.snoc o ⟨value, position⟩ joined
      obtain ⟨e'', ws, rest, rfl, derived, ends⟩ :=
        phrase (by rw [List.length_append] at shorter; omega) placed complete derived
      exact ⟨e'', ⟨.operator o, value, position⟩ :: vs ++ ws, rest, by simp, by simpa using derived, ends⟩
    | closing =>
      cases depth with
      | zero => cases nested
      | succ depth =>
        cases nested
        exact ⟨e, [], _ :: rest, rfl, (List.append_nil us).symm ▸ derived, _, rest, rfl, rfl, placed⟩
    | operand | negate | opening | function => cases begins

/-- Rows of every length can be read. -/
theorem reads (n : Nat) : ReadsOperand n ∧ ReadsPhrase n := by
  induction n with
  | zero =>
    constructor
    · intro depth last ts short h expects
      obtain rfl := List.length_eq_zero_iff.1 (Nat.le_zero.1 short)
      exact absurd (h.2.symm.trans expects) nofun
    · intro depth last e us ts short h complete derived
      obtain rfl := List.length_eq_zero_iff.1 (Nat.le_zero.1 short)
      obtain ⟨rfl, -⟩ := h
      exact ⟨e, [], [], rfl, (List.append_nil us).symm ▸ derived, rfl⟩
  | succ n ih => exact ⟨ReadsOperand.succ ih.1 ih.2, ReadsPhrase.succ ih.1 ih.2⟩

/-- Tokens in place are an expression. -/
theorem exists_derives {ts : List Token} (h : WellPlaced 0 none ts) : ∃ e, Derives .sum e ts := by
  obtain ⟨operand, phrase⟩ := reads ts.length
  obtain ⟨e, us, rest, rfl, derived, rfl⟩ := operand.phrase phrase (Nat.le_refl _) h rfl nofun
  exact ⟨e, (List.append_nil us).symm ▸ derived⟩

/-- The tokens of an accepted text are an expression. -/
theorem tokenize_derives {expression source : Text} {ts : List Token} (h : tokenize expression source = .ok ts) :
    ∃ e, Derives .sum e ts := exists_derives (tokenize_wellPlaced h)

end Reckoner.Expression
