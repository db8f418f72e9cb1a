import Reckoner.Datum.Basic
/-!
# Extents

What plain real numbers of several kinds have in common: an exact size, with which they are compared. Sizes that are far
apart are told apart by their digits alone, so that no huge power of ten is computed.
-/

namespace Reckoner

/-- The size `n / d * 10 ^ power`. -/
structure Extent.Size where
  n : Nat
  d : Nat
  power : Int

/-- The extent of a plain real number. What is not a number may have to be reported wherever it is met. -/
inductive Extent where
  | finite (negative : Bool) (size : Extent.Size)
  | infinite (negative : Bool)
  | undefined (signalling : Bool)

namespace Extent

/-- A power of ten above which the size does not reach; the size is at least a hundredth of it. -/
def Size.scale (s : Size) : Int := s.power + (Text.numeral s.n).length - (Text.numeral s.d).length + 1

/-- How two sizes compare. -/
def Size.compare (s t : Size) : Ordering :=
  if s.n = 0 ∨ t.n = 0 then Ord.compare s.n t.n
  else if s.scale + 2 ≤ t.scale then .lt
  else if t.scale + 2 ≤ s.scale then .gt
  else
    let common := min s.power t.power
    let raised := fun (n : Nat) (power : Int) => n * Nat.pow 10 (power - common).toNat
    Ord.compare (raised (s.n * t.d) s.power) (raised (t.n * s.d) t.power)

/-- How two extents compare; what is not a number is neither less nor greater nor equal. -/
def compare : Extent → Extent → Option Ordering
  | .undefined _, _ => none
  | _, .undefined _ => none
  | .infinite s, .infinite t => some (if s = t then .eq else if s then .lt else .gt)
  | .infinite s, _ => some (if s then .lt else .gt)
  | _, .infinite t => some (if t then .gt else .lt)
  | .finite s a, .finite t b =>
    if a.n = 0 ∧ b.n = 0 then some .eq
    else if a.n = 0 then some (if t then .gt else .lt)
    else if b.n = 0 then some (if s then .lt else .gt)
    else if s = t then some (if s then b.compare a else a.compare b)
    else some (if s then .lt else .gt)

/-- Whether an extent has to be reported wherever it is met. -/
def isSignalling : Extent → Bool
  | .undefined signalling => signalling
  | _ => false

/-- The extent of an integer. -/
def ofInt (i : Int) : Extent := .finite (decide (i < 0)) ⟨i.natAbs, 1, 0⟩

/-- The extent of a double. -/
def ofDouble : Double → Extent
  | .nan _ => .undefined false
  | .infinite s => .infinite s
  | .finite s m e => let q := (m : Rat) * Double.powerOfTwo e; .finite s ⟨q.num.natAbs, q.den, 0⟩

/-- The extent of a decimal number. -/
def ofDecimal : Decimal → Extent
  | .undefined _ signalling _ => .undefined signalling
  | .infinite s => .infinite s
  | .finite s digits exponent => .finite s ⟨digits, 1, exponent⟩

end Extent

/-- The extent of data that is a plain real number. -/
def Datum.extent? : Datum → Option Extent
  | .truth b => some (.ofInt (if b then 1 else 0))
  | .integer i => some (.ofInt i)
  | .double d => some (.ofDouble d)
  | .decimal d => some (.ofDecimal d)
  | _ => none

end Reckoner
