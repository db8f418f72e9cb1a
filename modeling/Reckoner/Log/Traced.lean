import Reckoner.Log.Event
/-!
# Traced results

A result together with the events on the way to it. The events stay when the result is a failure.
-/

namespace Reckoner

/-- An outcome and the events before it, in order. -/
structure Traced (α : Type) where
  events : List Event
  outcome : Outcome α

namespace Traced

variable {α β : Type}

/-- A result without events. -/
def lift (outcome : Outcome α) : Traced α := ⟨[], outcome⟩

/-- A result, and what follows from it. -/
def bind (x : Traced α) (f : α → Traced β) : Traced β :=
  match x.outcome with
  | .ok a => ⟨x.events ++ (f a).events, (f a).outcome⟩
  | .error e => ⟨x.events, .error e⟩

instance : Monad Traced where
  pure a := lift (.ok a)
  bind := bind

instance : MonadLift Outcome Traced := ⟨lift⟩

/-- An event. -/
def record (e : Event) : Traced Unit := ⟨[e], .ok ()⟩

/-- The result, with an event that reports on the input if it is refused. -/
def reporting (input : Text) (x : Traced α) : Traced α :=
  match x.outcome with
  | .error (.fault f) => ⟨x.events ++ [.failed input f.report], x.outcome⟩
  | _ => x

end Traced

end Reckoner
