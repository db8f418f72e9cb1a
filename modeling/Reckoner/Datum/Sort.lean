import Reckoner.Datum.Comparison
/-!
# Sorting

Sorting by a comparison that may fail and need not be an order: the run at the start of the list is kept, or turned
around if it goes down, and every later item is put into it by halving.
-/

namespace Reckoner.Datum

variable {α : Type}

/-- How many items after `last` go on with a run, in which neighbours compare as `down` says. -/
def runLength (less : α → α → Outcome Bool) (down : Bool) (last : α) : List α → Outcome Nat
  | [] => .ok 0
  | a :: rest => do
    if (← less a last) = down then return (← runLength less down a rest) + 1 else return 0

/-- The place for `a` between the items `low` and `high` of a sorted list: after those that are not greater. -/
def placeBetween (less : α → α → Outcome Bool) (a : α) (sorted : Array α) (low high : Nat) : Outcome Nat :=
  if _h : low < high then do
    let middle := low + (high - low) / 2
    match sorted[middle]? with
    | none => return low
    | some b =>
      if ← less a b then placeBetween less a sorted low middle
      else placeBetween less a sorted (middle + 1) high
  else .ok low
termination_by high - low
decreasing_by all_goals omega

/-- A sorted list with one more item. -/
def insertSorted (less : α → α → Outcome Bool) (sorted : List α) (a : α) : Outcome (List α) := do
  let place ← placeBetween less a sorted.toArray 0 sorted.length
  return sorted.take place ++ a :: sorted.drop place

/-- The items in ascending order, equal ones in the order in which they stand. -/
def sortBy (less : α → α → Outcome Bool) : List α → Outcome (List α)
  | [] => .ok []
  | [a] => .ok [a]
  | a :: b :: rest => do
    let down ← less b a
    let further ← runLength less down b rest
    let run := a :: b :: rest.take further
    (rest.drop further).foldlM (insertSorted less) (if down then run.reverse else run)

/-- Data in ascending order. -/
def sort : List Datum → Outcome (List Datum) := sortBy less

end Reckoner.Datum
