import Reckoner.Proofs.Expression.Conversion
/-!
# Evaluation, token by token

What an expression means is made of what its tokens mean: a property of operands that functions and operators keep is one
of the whole, and two meanings that agree on the tokens agree on the whole.
-/

namespace Reckoner.Expression

variable {α : Type} {meaning meaning' : Postfix.Interpretation α} {e : Expression}

theorem evalWith_preserves {P : α → Prop}
    (operand : ∀ o m, Mark.token m (.operand o) ∈ e.postorder → ∀ a, meaning.operand o m.value = .ok a → P a)
    (call : ∀ m, Mark.token m .function ∈ e.postorder → ∀ a b, P a → meaning.call m.value a = .ok b → P b)
    (negate : ∀ a b, P a → meaning.negate a = .ok b → P b)
    (apply : ∀ o t a b c, P a → P b → meaning.apply o t a b = .ok c → P c)
    {a : α} (h : e.evalWith meaning = .ok a) : P a := by
  induction e generalizing a with
  | operand o m => exact operand o m (List.mem_singleton_self _) a h
  | negate m e ih =>
    obtain ⟨b, first, h⟩ := Outcome.bind_eq_ok.1 h
    refine negate b a (ih ?_ ?_ first) h
    · exact fun o m mem => operand o m (by simp [postorder, mem])
    · exact fun m mem => call m (by simp [postorder, mem])
  | binary o m left right ihl ihr =>
    obtain ⟨b, first, h⟩ := Outcome.bind_eq_ok.1 h
    obtain ⟨c, second, h⟩ := Outcome.bind_eq_ok.1 h
    refine apply o m.value b c a (ihl ?_ ?_ first) (ihr ?_ ?_ second) h
    · exact fun o m mem => operand o m (by simp [postorder, mem])
    · exact fun m mem => call m (by simp [postorder, mem])
    · exact fun o m mem => operand o m (by simp [postorder, mem])
    · exact fun m mem => call m (by simp [postorder, mem])
  | call m argument ih =>
    obtain ⟨b, first, h⟩ := Outcome.bind_eq_ok.1 h
    refine call m (by simp [postorder]) b a (ih ?_ ?_ first) h
    · exact fun o m mem => operand o m (by simp [postorder, mem])
    · exact fun m mem => call m (by simp [postorder, mem])
  | group e ih => exact ih operand call h

theorem evalWith_congr
    (operand : ∀ o m, Mark.token m (.operand o) ∈ e.postorder → meaning.operand o m.value = meaning'.operand o m.value)
    (call : ∀ m, Mark.token m .function ∈ e.postorder → meaning.call m.value = meaning'.call m.value)
    (negate : meaning.negate = meaning'.negate) (apply : meaning.apply = meaning'.apply) :
    e.evalWith meaning = e.evalWith meaning' := by
  induction e with
  | operand o m => exact operand o m (List.mem_singleton_self _)
  | negate m e ih =>
    have inner := ih (fun o m mem => operand o m (by simp [postorder, mem]))
      fun m mem => call m (by simp [postorder, mem])
    simp only [evalWith, inner, negate]
  | binary o m left right ihl ihr =>
    have first := ihl (fun o m mem => operand o m (by simp [postorder, mem]))
      fun m mem => call m (by simp [postorder, mem])
    have second := ihr (fun o m mem => operand o m (by simp [postorder, mem]))
      fun m mem => call m (by simp [postorder, mem])
    simp only [evalWith, first, second, apply]
  | call m argument ih =>
    have inner := ih (fun o m mem => operand o m (by simp [postorder, mem]))
      fun m mem => call m (by simp [postorder, mem])
    simp only [evalWith, inner, call m (by simp [postorder])]
  | group e ih => exact ih operand call

/-- What has a value under one meaning has the same value under every meaning that gives its tokens at least what the first
one gives them. -/
theorem evalWith_mono {a : α} (h : e.evalWith meaning = .ok a)
    (operand : ∀ o m, Mark.token m (.operand o) ∈ e.postorder → ∀ a, meaning.operand o m.value = .ok a →
      meaning'.operand o m.value = .ok a)
    (call : ∀ name a b, meaning.call name a = .ok b → meaning'.call name a = .ok b)
    (negate : meaning.negate = meaning'.negate) (apply : meaning.apply = meaning'.apply) :
    e.evalWith meaning' = .ok a := by
  induction e generalizing a with
  | operand o m => exact operand o m (List.mem_singleton_self _) a h
  | negate m e ih =>
    obtain ⟨b, first, h⟩ := Outcome.bind_eq_ok.1 h
    refine Outcome.bind_eq_ok.2 ⟨b, ih first fun o m mem => operand o m (by simp [postorder, mem]), ?_⟩
    rwa [← negate]
  | binary o m left right ihl ihr =>
    obtain ⟨b, first, h⟩ := Outcome.bind_eq_ok.1 h
    obtain ⟨c, second, h⟩ := Outcome.bind_eq_ok.1 h
    refine Outcome.bind_eq_ok.2 ⟨b, ihl first fun o m mem => operand o m (by simp [postorder, mem]),
      Outcome.bind_eq_ok.2 ⟨c, ihr second fun o m mem => operand o m (by simp [postorder, mem]), ?_⟩⟩
    rwa [← apply]
  | call m argument ih =>
    obtain ⟨b, first, h⟩ := Outcome.bind_eq_ok.1 h
    exact Outcome.bind_eq_ok.2
      ⟨b, ih first fun o m mem => operand o m (by simp [postorder, mem]), call m.value b a h⟩
  | group e ih => exact ih h operand

/-! ## What a value needs -/

/-- A token has a meaning: an operand stands for something, and a function makes something of something. -/
def Meant (meaning : Postfix.Interpretation α) (t : Token) : Prop :=
  match t.kind with
  | .operand o => ∃ a, meaning.operand o t.value = .ok a
  | .function => ∃ a b, meaning.call t.value a = .ok b
  | _ => True

/-- Every token of what has a value has a meaning. -/
theorem meant_of_evalWith {a : α} (h : e.evalWith meaning = .ok a) {t : Token} (mem : t ∈ e.postorder) :
    Meant meaning t := by
  induction e generalizing a with
  | operand o m =>
    obtain rfl := List.mem_singleton.1 mem
    exact ⟨a, h⟩
  | negate m e ih =>
    obtain ⟨b, first, -⟩ := Outcome.bind_eq_ok.1 h
    rcases List.mem_append.1 mem with mem | last
    · exact ih first mem
    · obtain rfl := List.mem_singleton.1 last
      trivial
  | binary o m left right ihl ihr =>
    obtain ⟨b, first, h⟩ := Outcome.bind_eq_ok.1 h
    obtain ⟨c, second, -⟩ := Outcome.bind_eq_ok.1 h
    rcases List.mem_append.1 mem with mem | last
    · exact (List.mem_append.1 mem).elim (ihl first) (ihr second)
    · obtain rfl := List.mem_singleton.1 last
      trivial
  | call m argument ih =>
    obtain ⟨b, first, h⟩ := Outcome.bind_eq_ok.1 h
    rcases List.mem_append.1 mem with mem | last
    · exact ih first mem
    · obtain rfl := List.mem_singleton.1 last
      exact ⟨b, a, h⟩
  | group e ih => exact ih h mem

/-- The postfix tokens of an expression are among the tokens that stand for it. -/
theorem mem_of_mem_postorder {l : Level} {ts : List Token} (h : Derives l e ts) {t : Token} (mem : t ∈ e.postorder) :
    t ∈ ts := by
  induction h with
  | sum _ _ _ ihl ihr | product _ _ _ ihl ihr | power _ _ ihl ihr =>
    simp only [postorder, List.mem_append, List.mem_singleton] at mem
    rcases mem with (mem | mem) | rfl
    · exact List.mem_append_left _ (ihl mem)
    · exact List.mem_append_right _ (List.mem_cons_of_mem _ (ihr mem))
    · exact List.mem_append_right _ List.mem_cons_self
  | ofProduct _ ih | ofUnary _ ih | ofPower _ ih | ofAtom _ ih => exact ih mem
  | negate _ ih =>
    simp only [postorder, List.mem_append, List.mem_singleton] at mem
    rcases mem with mem | rfl
    · exact List.mem_cons_of_mem _ (ih mem)
    · exact List.mem_cons_self
  | operand => exact mem
  | group _ ih => simp [ih mem]
  | call _ ih =>
    simp only [postorder, List.mem_append, List.mem_singleton] at mem
    rcases mem with mem | rfl
    · simp [ih mem]
    · exact List.mem_cons_self

/-- Every token that stands for an expression is one of its postfix tokens or a parenthesis. -/
theorem mem_postorder_of_mem {l : Level} {ts : List Token} (h : Derives l e ts) {t : Token} (mem : t ∈ ts)
    (notOpening : t.kind ≠ .opening) (notClosing : t.kind ≠ .closing) : t ∈ e.postorder := by
  induction h with
  | sum _ _ _ ihl ihr | product _ _ _ ihl ihr | power _ _ ihl ihr =>
    rcases List.mem_append.1 mem with mem | mem
    · simp [postorder, ihl mem]
    · rcases List.mem_cons.1 mem with rfl | mem
      · simp [postorder]
      · simp [postorder, ihr mem]
  | ofProduct _ ih | ofUnary _ ih | ofPower _ ih | ofAtom _ ih => exact ih mem
  | negate _ ih =>
    rcases List.mem_cons.1 mem with rfl | mem
    · simp [postorder]
    · simp [postorder, ih mem]
  | operand => exact mem
  | group _ ih =>
    rcases List.mem_append.1 mem with mem | last
    · rcases List.mem_cons.1 mem with rfl | mem
      · exact absurd rfl notOpening
      · exact ih mem
    · obtain rfl := List.mem_singleton.1 last
      exact absurd rfl notClosing
  | call _ ih =>
    rcases List.mem_append.1 mem with mem | last
    · rcases List.mem_cons.1 mem with rfl | mem
      · simp [postorder]
      · rcases List.mem_cons.1 mem with rfl | mem
        · exact absurd rfl notOpening
        · simp [postorder, ih mem]
    · obtain rfl := List.mem_singleton.1 last
      exact absurd rfl notClosing

end Reckoner.Expression
