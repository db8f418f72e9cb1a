import Reckoner.Proofs.Expression.Outside
import Reckoner.Proofs.Mat.Weight
import Reckoner.Proofs.Token.Joining
/-!
# Expressions in larger scopes and longer texts

What has a value in a scope has the same value in a scope that knows more, and wherever in a text it stands.
-/

namespace Reckoner

/-! ## Larger scopes -/

/-- The second scope gives every name of the first one the same meaning. -/
structure Scope.Extends (scope scope' : Scope) : Prop where
  values : ∀ name v, scope.value? name = some v → scope'.value? name = some v
  functions : ∀ name f, scope.functions.lookup name = some f → scope'.functions.lookup name = some f

/-- Every scope extends the empty one. -/
theorem Scope.extends_empty (scope : Scope) : Extends {} scope := ⟨nofun, nofun⟩

namespace Expression

variable {scope scope' : Scope} {readMatrix readMatrix' : Text → Outcome Value} {source : Text} {e : Expression} {v : Value}

theorem evalWith_extends (known : Scope.Extends scope scope')
    (literals : ∀ t v, readMatrix t = .ok v → readMatrix' t = .ok v)
    (h : e.evalWith (scope.meaning readMatrix source) = .ok v) (source' : Text) :
    e.evalWith (scope'.meaning readMatrix' source') = .ok v := by
  refine evalWith_mono h ?_ ?_ rfl rfl
  · intro o m _ w value
    cases o with
    | number | imaginary => exact value
    | matrix => exact literals _ _ value
    | identifier =>
      simp only [Scope.meaning, Scope.operandValue] at value ⊢
      split at value
      next found =>
        cases value
        rw [known.values _ _ found]
      · cases value
  · intro name v w value
    simp only [Scope.meaning, Scope.callValue] at value ⊢
    split at value
    next found => rwa [known.functions _ _ found]
    · cases value

end Expression

/-- The rows of a literal are the same for whatever reads its entries at least as far. -/
theorem Mat.readRows_mono {α : Type} {readCell readCell' : Text → Outcome α} {literal : Text} {rows : List (List α)}
    (entries : ∀ t a, readCell t = .ok a → readCell' t = .ok a) (h : readRows readCell literal = .ok rows) :
    readRows readCell' literal = .ok rows := by
  obtain ⟨texts, found, h⟩ := Outcome.bind_eq_ok.1 h
  obtain ⟨cells, read, h⟩ := Outcome.bind_eq_ok.1 h
  have entry : ∀ i j t a, readEntry readCell i j t = .ok a → readEntry readCell' i j t = .ok a := by
    intro i j t a read
    unfold readEntry at read ⊢
    split at read
    · cases read
    next plain =>
      rw [if_neg plain]
      split at read
      · split at read <;> cases read
      · rw [entries t a read]
  refine Outcome.bind_eq_ok.2 ⟨texts, found, Outcome.bind_eq_ok.2 ⟨cells, ?_, h⟩⟩
  exact Lists.mapM_mono (fun _ _ => Lists.mapM_mono fun _ _ => entry _ _ _ _) read

namespace Postfix

variable {scope scope' : Scope} {t : Text} {v : Value}

theorem entryValue_extends (known : Scope.Extends scope scope') (h : entryValue scope t = .ok v) :
    entryValue scope' t = .ok v := by
  obtain ⟨form, read, h⟩ := Outcome.bind_eq_ok.1 h
  obtain ⟨ts, e, w, tokens, derived, value, rfl⟩ := Scope.exists_of_run read h
  have form_eq : form = ⟨e.postorder, t⟩ := by
    obtain ⟨ts', tokens', read⟩ := Outcome.bind_eq_ok.1 read
    cases tokens.symm.trans tokens'
    exact Except.ok.inj (read.symm.trans (Expression.ofTokens_derives derived t))
  refine Outcome.bind_eq_ok.2 ⟨form, read, ?_⟩
  rw [form_eq, Scope.run, Expression.run_postorder, Expression.evalWith_extends known (fun _ _ => id) value t]
  rfl

theorem matrixValue_extends (known : Scope.Extends scope scope') (h : matrixValue scope t = .ok v) :
    matrixValue scope' t = .ok v := by
  obtain ⟨rows, read, h⟩ := Outcome.bind_eq_ok.1 h
  exact Outcome.bind_eq_ok.2 ⟨rows, Mat.readRows_mono (fun _ _ => entryValue_extends known) read, h⟩

end Postfix

/-! ## Other places -/

namespace Expression

/-- The expression `k` characters further on. -/
def moved (k : Nat) : Expression → Expression
  | operand o m => operand o ⟨m.value, k + m.position⟩
  | negate m e => negate ⟨m.value, k + m.position⟩ (e.moved k)
  | binary o m left right => binary o ⟨m.value, k + m.position⟩ (left.moved k) (right.moved k)
  | call m argument => call ⟨m.value, k + m.position⟩ (argument.moved k)
  | group e => group (e.moved k)

theorem Derives.moved {l : Level} {e : Expression} {ts : List Token} (h : Derives l e ts) (k : Nat) :
    Derives l (e.moved k) (ts.map (Token.moved k)) := by
  have mark : ∀ (m : Mark) kind, Token.moved k (m.token kind) = Mark.token ⟨m.value, k + m.position⟩ kind := fun _ _ => rfl
  induction h with
  | sum additive _ _ ihl ihr =>
    rw [List.map_append, List.map_cons, mark]
    exact .sum additive ihl ihr
  | ofProduct _ ih => exact .ofProduct ih
  | product multiplicative _ _ ihl ihr =>
    rw [List.map_append, List.map_cons, mark]
    exact .product multiplicative ihl ihr
  | ofUnary _ ih => exact .ofUnary ih
  | negate _ ih =>
    rw [List.map_cons, mark]
    exact .negate ih
  | ofPower _ ih => exact .ofPower ih
  | power _ _ ihl ihr =>
    rw [List.map_append, List.map_cons, mark]
    exact .power ihl ihr
  | ofAtom _ ih => exact .ofAtom ih
  | operand =>
    rw [List.map_singleton, mark]
    exact .operand
  | group _ ih =>
    rw [List.map_append, List.map_cons, List.map_singleton, mark, mark]
    exact .group ih
  | call _ ih =>
    rw [List.map_append, List.map_cons, List.map_cons, List.map_singleton, mark, mark, mark]
    exact .call ih

/-- The place does not matter for the value. -/
theorem evalWith_moved {α : Type} (meaning : Postfix.Interpretation α) (k : Nat) (e : Expression) :
    (e.moved k).evalWith meaning = e.evalWith meaning := by
  induction e with
  | operand => rfl
  | negate m e ih => simp only [moved, evalWith, ih]
  | binary o m left right ihl ihr => simp only [moved, evalWith, ihl, ihr]
  | call m argument ih => simp only [moved, evalWith, ih]
  | group e ih => exact ih

end Expression

/-- The place does not matter for which operators are outside parentheses. -/
theorem Token.outside_moved (k depth : Nat) (ts : List Token) : outside depth (ts.map (moved k)) = outside depth ts := by
  induction ts generalizing depth with
  | nil => rfl
  | cons t ts ih => simp only [List.map_cons, outside, moved_kind, ih]

end Reckoner
