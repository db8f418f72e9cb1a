import Reckoner.Proofs.Expression.Evaluation
import Reckoner.Proofs.Expression.Parsing
import Reckoner.Proofs.Line.Names
import Reckoner.Session.Environment
/-!
# Scopes that agree

An expression has one value in all scopes that give its names the same meaning. The names of a matrix literal are those that
are found in its text, and its entries have no others.
-/

namespace Reckoner

open Line

/-- Two scopes give the names in a text the same meaning. -/
structure Scope.AgreeOn (t : Text) (scope scope' : Scope) : Prop where
  values : ∀ name ∈ variableNames t, scope.value? name = scope'.value? name
  functions : ∀ name ∈ functionNames t, scope.functions.lookup name = scope'.functions.lookup name

/-! ## Expressions -/

theorem Expression.evalWith_agree {scope scope' : Scope} {readMatrix readMatrix' : Text → Outcome Value} {e : Expression}
    (source : Text)
    (identifiers : ∀ m : Mark, m.token (.operand .identifier) ∈ e.postorder →
      scope.value? m.value = scope'.value? m.value)
    (matrices : ∀ m : Mark, m.token (.operand .matrix) ∈ e.postorder → readMatrix m.value = readMatrix' m.value)
    (functions : ∀ m : Mark, m.token .function ∈ e.postorder →
      scope.functions.lookup m.value = scope'.functions.lookup m.value) :
    e.evalWith (scope.meaning readMatrix source) = e.evalWith (scope'.meaning readMatrix' source) := by
  refine evalWith_congr (fun o m mem => ?_) (fun m mem => ?_) rfl rfl
  · cases o with
    | number | imaginary => rfl
    | matrix => exact matrices m mem
    | identifier => simp only [Scope.meaning, Scope.operandValue, identifiers m mem]
  · funext v
    simp only [Scope.meaning, Scope.callValue, functions m mem]

/-! ## Matrix literals -/

/-- The text of a row is a part of the literal. -/
theorem Mat.within_of_mem_rowTexts {literal row : Text} {rows : List Text} (found : rowTexts literal = .ok rows)
    (mem : row ∈ rows) : Within row literal := by
  simp only [rowTexts] at found
  split at found
  · cases found
  next inner between =>
    have whole : Within inner literal := by
      split at between
      · cases between
      · exact (within_of_between? between).trans (within_withoutSpaces literal)
    split at found
    · obtain ⟨⟨text, i⟩, numbered, read⟩ := Lists.exists_of_mem_mapM found mem
      have part := (within_of_mem_splitOn (by decide) (List.fst_mem_of_mem_zipIdx numbered)).trans whole
      simp only at read
      split at read
      next enclosed =>
        cases read
        exact (within_of_between? enclosed).trans part
      · cases read
    · cases found
      exact (within_of_mem_splitOn (by decide) mem).trans whole

/-- The text of an entry is a part of the literal. -/
theorem Mat.within_of_entry {literal row entry : Text} {rows : List Text} (found : rowTexts literal = .ok rows)
    (mem : row ∈ rows) (mem' : entry ∈ row.splitOn ',') : Within entry literal :=
  (within_of_mem_splitOn (by decide) mem').trans (within_of_mem_rowTexts found mem)

/-- The rows of a literal depend on how its entries are read only. -/
theorem Mat.readRows_congr {α : Type} {readCell readCell' : Text → Outcome α} {literal : Text}
    (entries : ∀ entry, Within entry literal → readCell entry = readCell' entry) :
    readRows readCell literal = readRows readCell' literal := by
  unfold readRows
  cases found : rowTexts literal with
  | error e => rfl
  | ok rows =>
    show (rows.zipIdx.mapM _ >>= _ : Outcome _) = (rows.zipIdx.mapM _ >>= _ : Outcome _)
    congr 1
    refine Lists.mapM_congr fun e mem => Lists.mapM_congr fun d mem' => ?_
    have part := within_of_entry found (List.fst_mem_of_mem_zipIdx mem) (List.fst_mem_of_mem_zipIdx mem')
    simp only [readEntry, entries d.1 part]

namespace Postfix

variable {scope scope' : Scope} {literal : Text}

theorem entryValue_agree (agree : Scope.AgreeOn literal scope scope') {entry : Text} (part : Within entry literal) :
    entryValue scope entry = entryValue scope' entry := by
  unfold entryValue parse
  cases read : Token.tokenize entry entry with
  | error e => rfl
  | ok ts =>
    obtain ⟨e, derived⟩ := Expression.tokenize_derives read
    show (ofTokens ts entry >>= _ : Outcome _) = (ofTokens ts entry >>= _ : Outcome _)
    rw [Expression.ofTokens_derives derived]
    show scope.run _ _ = scope'.run _ _
    have standing : ∀ t ∈ e.postorder, t ∈ ts := fun t => Expression.mem_of_mem_postorder derived
    simp only [Scope.run, Expression.run_postorder]
    rw [Expression.evalWith_agree entry (fun m mem => ?_) (fun m mem => rfl) fun m mem => ?_]
    · exact agree.values _ (Token.mem_variableNames_of_token read (standing _ mem) rfl part)
    · exact agree.functions _ (Token.mem_functionNames_of_token read (standing _ mem) rfl part)

/-- A matrix literal has one value in scopes that agree on the names in it. -/
theorem matrixValue_agree (agree : Scope.AgreeOn literal scope scope') :
    matrixValue scope literal = matrixValue scope' literal := by
  unfold matrixValue
  rw [Mat.readRows_congr fun entry part => entryValue_agree agree part]

end Postfix

/-! ## Expressions without an unknown -/

namespace Expression

/-- The unknown stands nowhere in the expression, and in no matrix literal of it. -/
def Avoids (x : Text) (e : Expression) : Prop :=
  (∀ m : Mark, m.token (.operand .identifier) ∈ e.postorder → m.value ≠ x) ∧
    ∀ m : Mark, m.token (.operand .matrix) ∈ e.postorder → x ∉ variableNames m.value

/-- Numbers and other names are parts without the unknown. -/
theorem avoids_operand {x : Text} {o : Operand} {m : Mark} (other : o = .identifier → m.value ≠ x) (noMatrix : o ≠ .matrix) :
    (operand o m).Avoids x := by
  refine ⟨fun m' mem => ?_, fun m' mem => ?_⟩
  · have same := List.mem_singleton.1 mem
    have kind : Token.Kind.operand .identifier = .operand o := congrArg Token.kind same
    have value : m'.value = m.value := congrArg Token.value same
    cases kind
    exact value ▸ other rfl
  · have kind : Token.Kind.operand .matrix = .operand o := congrArg Token.kind (List.mem_singleton.1 mem)
    cases kind
    exact absurd rfl noMatrix

/-- What the unknown is bound to does not matter for an expression without it. -/
theorem evalWith_of_avoids {x : Text} {e : Expression} (avoids : e.Avoids x) (env : Environment) (v : Value)
    (source : Text) :
    e.evalWith ((env.scope [(x, v)]).meaning (Postfix.matrixValue (env.scope [(x, v)])) source) =
      e.evalWith ((env.scope []).meaning (Postfix.matrixValue (env.scope [])) source) := by
  have other : ∀ name, name ≠ x → (env.scope [(x, v)]).value? name = (env.scope []).value? name := by
    intro name differs
    simp [Scope.value?, Environment.scope, List.lookup_cons, beq_false_of_ne differs]
  refine evalWith_agree source (fun m mem => other _ (avoids.1 m mem)) (fun m mem => ?_) fun _ _ => rfl
  exact Postfix.matrixValue_agree ⟨fun name found => other name fun same => avoids.2 m mem (same ▸ found), fun _ _ => rfl⟩

end Expression

end Reckoner
