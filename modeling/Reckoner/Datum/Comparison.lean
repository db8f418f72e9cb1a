import Reckoner.Datum.Hash
/-!
# Comparing data

Equality and order of data of any kind, and dropping repetitions. Integers and truth values compare with values as
rational numbers, other plain numbers only among themselves. Some decimal numbers that are no numbers are reported when
they are compared.
-/

namespace Reckoner.Datum

/-- The value that an integer, a truth value or a value itself is. -/
def operand? : Datum → Option Value
  | .truth b => some (.rational (if b then 1 else 0))
  | .integer i => some (.rational i)
  | .value v => some v
  | _ => none

/-- The integer that an integer or a truth value is. -/
def plainInteger? : Datum → Option Int
  | .truth b => some (if b then 1 else 0)
  | .integer i => some i
  | _ => none

/-- The integer that data must be where nothing else is taken. -/
def toInteger (d : Datum) : Outcome Int :=
  match d.plainInteger? with
  | some i => .ok i
  | none => .error .kindMismatch

/-- Whether data is a decimal number. -/
def isDecimal : Datum → Bool
  | .decimal _ => true
  | _ => false

/-! ## Equality -/

/-- Equality of extents, where one that has to be reported is. -/
def sameExtent (x y : Extent) : Outcome Bool :=
  if x.isSignalling || y.isSignalling then .error .undefinedDecimal else .ok (x.compare y == some .eq)

/-- Equality of plain numbers; other data are different. -/
def sameNumber (a b : Datum) : Outcome Bool :=
  match a, b with
  | .complexDouble z, .complexDouble w => .ok (z.eq w)
  | .complexDouble z, b => if z.im.isZero then besideReal z.re b else .ok false
  | a, .complexDouble w => if w.im.isZero then besideReal w.re a else .ok false
  | a, b =>
    match a.extent?, b.extent? with
    | some x, some y => sameExtent x y
    | _, _ => .ok false
where
  /-- Equality of the real part of a complex number and data. -/
  besideReal (d : Double) (b : Datum) : Outcome Bool :=
    match b.extent? with
    | some y => sameExtent (.ofDouble d) y
    | none => .ok false

mutual

/-- Equality of data. Data of kinds that do not compare are different. -/
def same : Datum → Datum → Outcome Bool
  | .nothing, .nothing => .ok true
  | .object, .object => .ok true
  | .allReals, .allReals => .ok true
  | .text s, .text t => .ok (s == t)
  | .function f, .function g => .ok (f.same g)
  | .list xs, .list ys => if xs.length = ys.length then sameItems xs ys else .ok false
  | .tuple xs, .tuple ys => sameItems xs ys
  | a, b =>
    match a.operand?, b.operand? with
    | some v, some w => .ok (v.same w)
    | _, _ => sameNumber a b

/-- Equality of lists, item by item. -/
def sameItems : List Datum → List Datum → Outcome Bool
  | [], [] => .ok true
  | a :: as, b :: bs => do if ← same a b then sameItems as bs else return false
  | _, _ => .ok false

end

/-! ## Order -/

/-- How plain numbers compare. A decimal number cannot be put in order with what is not a number. -/
def compareReals (a b : Datum) : Outcome (Option Ordering) :=
  match a.extent?, b.extent? with
  | some x, some y =>
    match x.compare y with
    | none => if a.isDecimal || b.isDecimal then .error .undefinedDecimal else .ok none
    | order => .ok order
  | _, _ => .error .kindMismatch

mutual

/-- How two data compare, or none if they are neither equal nor in order. Matrices, polynomials and data of unlike kinds
are not ordered. -/
def compare : Datum → Datum → Outcome (Option Ordering)
  | .text s, .text t => .ok (some (if s = t then .eq else if s < t then .lt else .gt))
  | .list xs, .list ys => compareItems xs ys
  | .tuple xs, .tuple ys => compareItems xs ys
  | a, b =>
    match a.operand?.bind Value.toNumber?, b.operand?.bind Value.toNumber? with
    | some x, some y => .ok (some (if x.less y then .lt else if y.less x then .gt else .eq))
    | _, _ => compareReals a b

/-- How two lists compare: by the first items that differ, else by length. -/
def compareItems : List Datum → List Datum → Outcome (Option Ordering)
  | a :: as, b :: bs => do if ← same a b then compareItems as bs else compare a b
  | xs, ys => .ok (some (Ord.compare xs.length ys.length))

end

/-- Whether the first is less than the second. -/
def less (a b : Datum) : Outcome Bool := do return (← compare a b) == some .lt

/-- Whether the first is less than the second or as large. -/
def atMost (a b : Datum) : Outcome Bool := do
  match ← compare a b with
  | some order => return order != .gt
  | none => return false

/-! ## Repetitions -/

mutual

/-- Whether data can be looked up by equality; lists, objects and decimal numbers that are reported cannot. -/
def isKey : Datum → Bool
  | .list _ => false
  | .object => false
  | .tuple items => areKeys items
  | .decimal (.undefined _ true _) => false
  | _ => true

/-- Whether all items can be looked up. -/
def areKeys : List Datum → Bool
  | [] => true
  | d :: rest => isKey d && areKeys rest

end

/-- An entry of a table: a key with its hash, and what is stored under it. -/
structure Entry (α : Type) where
  hash : Int
  key : Datum
  item : α

/-- Whether an entry is the one of a key. Keys are compared only if their hashes are equal. -/
def Entry.isOf {α : Type} (e : Entry α) (hash : Int) (key : Datum) : Outcome Bool :=
  if e.hash = hash then e.key.same key else .ok false

/-- A table with one of its entries set: a key that exists keeps its first form. -/
def setEntry {α : Type} (hash : Int) (key : Datum) (a : α) : List (Entry α) → Outcome (List (Entry α))
  | [] => .ok [⟨hash, key, a⟩]
  | e :: rest => do
    if ← e.isOf hash key then return { e with item := a } :: rest
    else return e :: (← setEntry hash key a rest)

/-- The table of some entries: a repeated key keeps its first form and takes the last entry. -/
def table {α : Type} (H : Hashing) (entries : List (Datum × α)) : Outcome (List (Entry α)) :=
  if entries.all (·.1.isKey) then entries.foldlM (fun seen e => setEntry (H.datum e.1) e.1 e.2 seen) []
  else .error .kindMismatch

/-- The data without those that equal an earlier one, looked up by their hashes. -/
def distinctBy (H : Hashing) (ds : List Datum) : Outcome (List Datum) := do
  return (← table H (ds.map fun d => (d, ()))).map (·.key)

/-- Entries by their keys: a repeated key keeps its first form and takes the last entry. -/
def distinctEntries {α : Type} (entries : List (Datum × α)) : Outcome (List (Datum × α)) := do
  return (← table .standard entries).map fun e => (e.key, e.item)

/-- The data without those that equal an earlier one. -/
def distinct (ds : List Datum) : Outcome (List Datum) := distinctBy .standard ds

end Reckoner.Datum
