import Reckoner.Line.Basic
import Reckoner.Log.Traced
import Reckoner.Postfix.Evaluation
/-!
# Environments

The variables and functions of a session, and the evaluation of an expression among them.
-/

namespace Reckoner

/-- Variables and functions by name, in the order of their first definition. -/
structure Environment where
  values : List (Text × Value) := []
  functions : List (Text × NamedFunction) := []
  deriving DecidableEq

/-- What a line defines. -/
inductive Definition where
  | variable (name : Text) (v : Value)
  | function (f : NamedFunction)
  deriving DecidableEq

namespace Environment

/-! ## Looking up and setting -/

/-- Entries with one of them set; an entry that exists keeps its place. -/
def setEntry {α : Type} (entries : List (Text × α)) (name : Text) (a : α) : List (Text × α) :=
  if entries.any (·.1 == name) then entries.map fun e => if e.1 = name then (name, a) else e
  else entries ++ [(name, a)]

/-- The value of a variable. -/
def value? (env : Environment) (name : Text) : Option Value := env.values.lookup name

/-- The function of a name. -/
def function? (env : Environment) (name : Text) : Option NamedFunction := env.functions.lookup name

/-- The environment with a variable set. -/
def setVariable (env : Environment) (name : Text) (v : Value) : Environment :=
  { env with values := setEntry env.values name v }

/-- The environment with a function set, under its own name. -/
def setFunction (env : Environment) (f : NamedFunction) : Environment :=
  { env with functions := setEntry env.functions f.name f }

/-- The environment after a definition. -/
def define (env : Environment) : Definition → Environment
  | .variable name v => env.setVariable name v
  | .function f => env.setFunction f

/-- The scope of an expression with some names bound. -/
def scope (env : Environment) (bindings : List (Text × Value)) : Scope :=
  ⟨env.values, env.functions, bindings⟩

/-! ## Evaluation -/

/-- Refuses an expression with names that nothing defines; `bound` names need no definition. -/
def checkNames (env : Environment) (expression source : Text) (bound : List Text) : Outcome Unit :=
  let unset := (Line.variableNames expression).filter fun name =>
    !bound.contains name && (env.value? name).isNone
  let functions := (Line.functionNames expression).filter fun name => (env.function? name).isNone
  if !unset.isEmpty then refuse (.undefinedVariables source unset)
  else if !functions.isEmpty then refuse (.undefinedFunctions source functions)
  else .ok ()

/-- The value of an expression that is part of the line `source`, with some names bound. -/
def eval (env : Environment) (expression source : Text) (bindings : List (Text × Value)) : Traced Value := do
  Line.checkBrackets expression source
  env.checkNames expression source (bindings.map (·.1))
  let form ← Postfix.parse expression source
  Traced.record (.evaluating source form.text)
  form.eval (env.scope bindings)

/-- A name bound to the polynomial that is its own variable. -/
def unknown (name : Text) : List (Text × Value) := [(name, .polynomial (Poly.identity name))]

/-- The function that a text calls with the function's own parameter as argument. -/
def ownCall? (env : Environment) (t : Text) : Option NamedFunction := do
  let (name, argument) ← Line.header? t
  let f ← env.function? name
  if argument = f.parameter then some f else none

end Environment

end Reckoner
