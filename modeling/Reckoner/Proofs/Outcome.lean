import Reckoner.Fault
/-!
# Outcomes

How an outcome that is put together from others ends: with a value if each part gives one, else with the failure of
the first part that fails.
-/

namespace Reckoner.Outcome

variable {α β : Type}

/-! ## Values -/

theorem bind_eq_ok {x : Outcome α} {f : α → Outcome β} {b : β} :
    x >>= f = .ok b ↔ ∃ a, x = .ok a ∧ f a = .ok b := by
  cases x with
  | ok a => exact ⟨fun h => ⟨a, rfl, h⟩, by rintro ⟨_, ⟨⟩, h⟩; exact h⟩
  | error e => exact ⟨nofun, by rintro ⟨_, ⟨⟩, _⟩⟩

theorem bind_eq_error {x : Outcome α} {f : α → Outcome β} {e : Failure} :
    x >>= f = .error e ↔ x = .error e ∨ ∃ a, x = .ok a ∧ f a = .error e := by
  cases x with
  | ok a =>
    have next : (Except.ok a : Outcome α) >>= f = f a := rfl
    simp [next]
  | error d =>
    have stays : (Except.error d : Outcome α) >>= f = .error d := rfl
    simp [stays]

theorem map_eq_error {x : Outcome α} {f : α → β} {e : Failure} : x.map f = .error e ↔ x = .error e := by
  cases x <;> simp [Except.map]

theorem map_eq_ok {x : Outcome α} {f : α → β} {b : β} : x.map f = .ok b ↔ ∃ a, x = .ok a ∧ f a = b := by
  cases x with
  | ok a => exact ⟨fun h => ⟨a, rfl, Except.ok.inj h⟩, by rintro ⟨_, ⟨⟩, rfl⟩; rfl⟩
  | error e => exact ⟨nofun, by rintro ⟨_, ⟨⟩, _⟩⟩

theorem refuse_ne_ok {f : Fault} {a : α} : (refuse f : Outcome α) ≠ .ok a := nofun

/-! ## What is written -/

section Written

variable {short : Bool} {a b : α} {e : Failure}

theorem written_of (h : short = true) : written short a = .ok a := if_pos h

theorem written_eq_ok : written short a = .ok b ↔ short = true ∧ a = b := by
  cases short <;> simp [written]

theorem written_eq_error : written short a = .error e ↔ short = false ∧ e = .meaningless := by
  cases short <;> simp [written, eq_comm]

theorem map_written (f : α → β) : (written short a).map f = written short (f a) := by
  cases short <;> rfl

theorem mapM_written {f : α → Outcome β} {writes : α → Bool} {form : α → β} (h : ∀ a, f a = .written (writes a) (form a))
    (as : List α) : as.mapM f = .written (as.all writes) (as.map form) := by
  induction as with
  | nil => rfl
  | cons a as ih =>
    rw [List.mapM_cons, h, ih, List.all_cons]
    cases writes a <;> cases as.all writes <;> rfl

end Written

/-! ## Failures -/

/-- Every failure that the outcome may be has a property. -/
def FailsOnly (p : Failure → Bool) (x : Outcome α) : Prop := ∀ e, x = .error e → p e = true

namespace FailsOnly

variable {p q : Failure → Bool}

theorem ok (a : α) : FailsOnly p (.ok a) := nofun

theorem error {e : Failure} (h : p e = true) : FailsOnly p (.error e : Outcome α) := by
  rintro _ ⟨⟩
  exact h

theorem refuse {f : Fault} (h : p (.fault f) = true) : FailsOnly p (refuse f : Outcome α) := error h

theorem bind {x : Outcome α} {f : α → Outcome β} (h : FailsOnly p x) (hf : ∀ a, x = .ok a → FailsOnly p (f a)) :
    FailsOnly p (x >>= f) := by
  cases x with
  | ok a => exact hf a rfl
  | error e => rintro _ ⟨⟩; exact h e rfl

theorem map {x : Outcome α} (f : α → β) (h : FailsOnly p x) : FailsOnly p (x.map f) := by
  cases x with
  | ok a => exact nofun
  | error e => rintro _ ⟨⟩; exact h e rfl

theorem mono {x : Outcome α} (h : FailsOnly p x) (sub : ∀ e, p e = true → q e = true) : FailsOnly q x :=
  fun e he => sub e (h e he)

theorem foldlM {f : β → α → Outcome β} (h : ∀ b a, FailsOnly p (f b a)) (as : List α) (b : β) :
    FailsOnly p (as.foldlM f b) := by
  induction as generalizing b with
  | nil => exact ok b
  | cons a as ih =>
    rw [List.foldlM_cons]
    exact bind (h b a) fun c _ => ih c

theorem mapM {f : α → Outcome β} (h : ∀ a, FailsOnly p (f a)) (as : List α) : FailsOnly p (as.mapM f) := by
  induction as with
  | nil => exact ok []
  | cons a as ih =>
    rw [List.mapM_cons]
    exact bind (h a) fun b _ => bind ih fun bs _ => ok (b :: bs)

end FailsOnly

end Reckoner.Outcome
