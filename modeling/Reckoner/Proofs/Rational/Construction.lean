import Reckoner.Datum.Integers
import Reckoner.Proofs.Rational.Fraction
import Reckoner.Proofs.Rational.Remainder
/-!
# Rational numbers built from integers

A rational number is built from quotients of integers by operators, opposites and absolute values. Every such number is
kept as a fraction, and the data that the operators give is the number of that fraction, step by step. Main statement:
two numbers built in any way are numbers of the ordered field of rational numbers, in lowest terms.
-/

namespace Reckoner

/-! ## Rational numbers as data -/

namespace Datum

variable {a b : Datum} {p q : Rat}

theorem compare_of_operands (ha : a.operand? = some (.rational p)) (hb : b.operand? = some (.rational q)) :
    a.compare b = .ok (some (if p < q then .lt else if q < p then .gt else .eq)) := by
  obtain ⟨t, rfl, hp⟩ | ⟨i, rfl, hp⟩ | rfl := operand?_cases ha <;>
    obtain ⟨t', rfl, hq⟩ | ⟨i', rfl, hq⟩ | rfl := operand?_cases hb <;>
      simp only [compare, ha, hb] <;>
        simp [Value.rational, Value.toNumber?, Number.less]

theorem less_of_operands (ha : a.operand? = some (.rational p)) (hb : b.operand? = some (.rational q)) :
    a.less b = .ok (decide (p < q)) := by
  rw [less, compare_of_operands ha hb]
  refine congrArg Except.ok ?_
  rcases lt_trichotomy p q with less | rfl | greater
  · simp [less]
  · simp
  · simp [greater, greater.not_gt]

theorem atMost_of_operands (ha : a.operand? = some (.rational p)) (hb : b.operand? = some (.rational q)) :
    a.atMost b = .ok (decide (p ≤ q)) := by
  rw [atMost, compare_of_operands ha hb]
  refine congrArg Except.ok ?_
  rcases lt_trichotomy p q with less | rfl | greater
  · simp [less, less.le]
  · simp
  · simp [greater, greater.not_gt]

theorem same_of_rationals (ha : a.operand? = some (.rational p)) (hb : b.operand? = some (.rational q)) :
    a.same b = .ok (decide (p = q)) := by
  rw [same_of_operands ha hb]
  refine congrArg Except.ok (Bool.eq_iff_iff.2 ?_)
  simp [Value.same, Value.rational, Number.same, Number.toGaussian, Gaussian.ofRat]

/-- Integers given as data are brought to lowest terms as fractions are. -/
theorem lowestTerms_integers (n d : Int) :
    lowestTerms (.integer n) (.integer d) = (Fraction.reduced n d).map fun a => (a.numerator, a.denominator) := by
  have zero : equalsZero (.integer d) = .ok (decide (d = 0)) := by
    rw [equalsZero, same_of_rationals rfl rfl]
    simp
  have less : less (.integer d) (.integer 0) = .ok (decide (d < 0)) := by
    rw [less_of_operands rfl rfl]
    simp
  simp only [lowestTerms, zero, withPositive, less, Fraction.reduced]
  by_cases h : d = 0
  · subst h
    rfl
  · by_cases negative : d < 0
    · simp [h, negative]
      rfl
    · simp [h, negative]
      rfl

/-! ## Operators -/

/-- Fractions and data come out of two computations: the fraction in lowest terms of the number that the data is, or
one and the same failure. -/
inductive Agree : Outcome Fraction → Outcome Datum → Prop where
  | ok (q : Rat) : Agree (.ok (.ofRat q)) (.ok (.rational q))
  | error (e : Failure) : Agree (.error e) (.error e)

namespace Agree

theorem of_map (x : Outcome Rat) : Agree (x.map .ofRat) (x.map rational) := by
  cases x with
  | ok q => exact ok q
  | error e => exact error e

theorem bind {x : Outcome Fraction} {y : Outcome Datum} {f : Fraction → Outcome Fraction} {g : Datum → Outcome Datum}
    (h : Agree x y) (next : ∀ q, Agree (f (.ofRat q)) (g (.rational q))) : Agree (x >>= f) (y >>= g) := by
  cases h with
  | ok q => exact next q
  | error e => exact error e

end Agree

theorem map_rational (x : Outcome Rat) : ((x.map Number.rational).map Value.number).map value = x.map rational := by
  cases x <;> rfl

theorem operate_rational {o : Operator} (apart : o ≠ .power ∧ o ≠ .matrixTimes) (p q : Rat) :
    operate o (rational p) (rational q) = (o.apply (.rational p) (.rational q)).map .value :=
  operate_of_operands rfl rfl (by simp [plainInteger?, rational]) (by cases o <;> rfl) apart

theorem operate_divide (p q : Rat) : operate .divide (rational p) (rational q) = (Rational.divide p q).map rational :=
  (operate_rational (by simp) p q).trans (map_rational (Rational.divide p q))

theorem operate_modulo (p q : Rat) : operate .modulo (rational p) (rational q) = (Rational.modulo p q).map rational :=
  (operate_rational (by simp) p q).trans (map_rational (Rational.modulo p q))

/-- Every operator on two rational numbers computes with their fractions. -/
theorem agree_operate (o : Operator) (p q : Rat) :
    Agree ((Fraction.ofRat p).apply o (.ofRat q)) (operate o (rational p) (rational q)) := by
  cases o with
  | plus =>
    rw [Fraction.apply, Fraction.add_eq, operate_rational (by simp)]
    exact .ok (p + q)
  | minus =>
    rw [Fraction.apply, Fraction.sub_eq, operate_rational (by simp)]
    exact .ok (p - q)
  | times =>
    rw [Fraction.apply, Fraction.mul_eq, operate_rational (by simp)]
    exact .ok (p * q)
  | divide =>
    rw [Fraction.apply, Fraction.divide_eq, operate_divide]
    exact .of_map _
  | modulo =>
    rw [Fraction.apply, Fraction.modulo_eq, operate_modulo]
    exact .of_map _
  | power =>
    have raised : operate .power (rational p) (rational q) =
        ((Value.rational q).exponent >>= fun n => (Value.rational p).powerInt n).map .value := rfl
    rw [Fraction.apply, Fraction.exponent_eq, raised]
    cases (Value.rational q).exponent with
    | error e => exact .error e
    | ok n =>
      refine (?_ : Agree ((Fraction.ofRat p).power n) (((Value.rational p).powerInt n).map .value))
      rw [Fraction.power_eq]
      exact map_rational (Rational.power p n) ▸ .of_map _
  | matrixTimes => exact .error .kindMismatch

/-- An integer beside a rational number acts as that number. -/
theorem operate_integer_right (o : Operator) (p : Rat) (i : Int) :
    operate o (rational p) (.integer i) = operate o (rational p) (rational i) := by
  cases o <;> rfl

theorem operate_integer_left (o : Operator) (i : Int) (q : Rat) :
    operate o (.integer i) (rational q) = operate o (rational i) (rational q) := by
  cases o <;> rfl

end Datum

/-! ## Constructions -/

/-- How a rational number is built: as the quotient of two integers, or by an operator from what is built already and
from integers. -/
inductive Construction where
  | quotient (numerator denominator : Int)
  | apply (o : Operator) (a b : Construction)
  | applyInteger (o : Operator) (a : Construction) (i : Int)
  | integerApply (o : Operator) (i : Int) (a : Construction)
  | negated (a : Construction)
  | absolute (a : Construction)
  deriving DecidableEq, Repr

namespace Construction

open Datum Rational

/-- The data that is built. -/
def built (places : Nat) : Construction → Outcome Datum
  | quotient n d => (toQuotient (.integer n) (.integer d)).map .rational
  | apply o a b => do operate o (← a.built places) (← b.built places)
  | applyInteger o a i => do operate o (← a.built places) (.integer i)
  | integerApply o i a => do operate o (.integer i) (← a.built places)
  | negated a => do (← a.built places).negated
  | absolute a => do (← a.built places).absolute places

/-- The fraction that is stored for it. -/
def stored : Construction → Outcome Fraction
  | quotient n d => Fraction.reduced n d
  | apply o a b => do (← a.stored).apply o (← b.stored)
  | applyInteger o a i => do (← a.stored).apply o (.ofInt i)
  | integerApply o i a => do (Fraction.ofInt i).apply o (← a.stored)
  | negated a => do (← a.stored).neg
  | absolute a => do (← a.stored).abs

theorem agree_quotient (n d : Int) :
    Agree (Fraction.reduced n d) ((toQuotient (.integer n) (.integer d)).map .rational) := by
  have divided : toQuotient (.integer n) (.integer d) =
      if (d : Rat) = 0 then refuse .zeroDenominator else .ok (n / d : Rat) := rfl
  by_cases h : d = 0
  · subst h
    exact .error (.fault .zeroDenominator)
  · rw [divided, if_neg (Int.cast_ne_zero.2 h), Fraction.reduced_eq h]
    exact .ok (n / d)

/-- Whatever is built, by any number of steps, is a rational number stored in lowest terms, or both fail alike. -/
theorem agree_stored (places : Nat) (c : Construction) : Agree c.stored (c.built places) := by
  induction c with
  | quotient n d => exact agree_quotient n d
  | apply o a b left right => exact left.bind fun p => right.bind fun q => agree_operate o p q
  | applyInteger o a i left =>
    refine left.bind fun p => ?_
    rw [operate_integer_right, ← Fraction.ofRat_intCast]
    exact agree_operate o p i
  | integerApply o i a right =>
    refine right.bind fun q => ?_
    rw [operate_integer_left, ← Fraction.ofRat_intCast]
    exact agree_operate o i q
  | negated a inner =>
    refine inner.bind fun q => ?_
    rw [Fraction.neg_eq]
    exact .ok (-q)
  | absolute a inner =>
    refine inner.bind fun q => ?_
    rw [Fraction.abs_eq]
    exact .ok (Rational.abs q)

/-! ## The ordered field -/

/-- Two computations give a number: one its fraction in lowest terms, the other the number as data. -/
structure Gives (stored : Outcome Fraction) (run : Outcome Datum) (r : Rat) : Prop where
  fraction : ∃ s : Fraction, stored = .ok s ∧ s.Lowest ∧ s.value = r
  data : run = .ok (.rational r)

theorem Gives.ofRat {stored : Outcome Fraction} {run : Outcome Datum} {r : Rat} (left : stored = .ok (.ofRat r))
    (right : run = .ok (.rational r)) : Gives stored run r :=
  ⟨⟨.ofRat r, left, Fraction.lowest_ofRat r, Fraction.value_ofRat r⟩, right⟩

/-- Two rational numbers as data and as fractions, in the ordered field of rational numbers: the fractions are in lowest
terms and are the numbers, and equality, order and arithmetic of data and of fractions are those of the numbers. -/
structure InField (places : Nat) (p q : Rat) (x y : Datum) (f g : Fraction) : Prop where
  lowest : f.Lowest ∧ g.Lowest
  value : f.value = p ∧ g.value = q
  data : x = .rational p ∧ y = .rational q
  same : (f = g ↔ p = q) ∧ x.same y = .ok (decide (p = q))
  less : f.compares (· < ·) g = decide (p < q) ∧ x.less y = .ok (decide (p < q))
  atMost : f.compares (· ≤ ·) g = decide (p ≤ q) ∧ x.atMost y = .ok (decide (p ≤ q))
  greater : f.compares (· > ·) g = decide (p > q) ∧ y.less x = .ok (decide (p > q))
  atLeast : f.compares (· ≥ ·) g = decide (p ≥ q) ∧ y.atMost x = .ok (decide (p ≥ q))
  sum : Gives (f.add g) (operate .plus x y) (p + q)
  difference : Gives (f.sub g) (operate .minus x y) (p - q)
  product : Gives (f.mul g) (operate .times x y) (p * q)
  quotient : q ≠ 0 → Gives (f.divide g) (operate .divide x y) (p / q)
  zeroDivisor : q = 0 → f.divide g = refuse .divideByZero ∧ operate .divide x y = refuse .divideByZero
  remainder : q ≠ 0 → ∃ r, Gives (f.modulo g) (operate .modulo x y) r ∧ ∀ s, IsRemainder p q s ↔ s = r
  opposite : Gives f.neg x.negated (-p)
  size : Gives f.abs (x.absolute places) |p|

/-- Rational numbers and their fractions in lowest terms are numbers of the field. -/
theorem inField_ofRat (places : Nat) (p q : Rat) :
    InField places p q (.rational p) (.rational q) (.ofRat p) (.ofRat q) where
  lowest := ⟨Fraction.lowest_ofRat p, Fraction.lowest_ofRat q⟩
  value := ⟨Fraction.value_ofRat p, Fraction.value_ofRat q⟩
  data := ⟨rfl, rfl⟩
  same := ⟨Fraction.ofRat_inj, same_of_rationals rfl rfl⟩
  less := ⟨Fraction.compares_less, less_of_operands rfl rfl⟩
  atMost := ⟨Fraction.compares_atMost, atMost_of_operands rfl rfl⟩
  greater := ⟨Fraction.compares_greater, less_of_operands rfl rfl⟩
  atLeast := ⟨Fraction.compares_atLeast, atMost_of_operands rfl rfl⟩
  sum := .ofRat (Fraction.add_eq p q) (operate_rational (by simp) p q)
  difference := .ofRat (Fraction.sub_eq p q) (operate_rational (by simp) p q)
  product := .ofRat (Fraction.mul_eq p q) (operate_rational (by simp) p q)
  quotient h := by
    have quotient : Rational.divide p q = .ok (p / q) := if_neg h
    exact .ofRat (by rw [Fraction.divide_eq, quotient]; rfl) (by rw [operate_divide, quotient]; rfl)
  zeroDivisor h := by
    have refused : Rational.divide p q = refuse .divideByZero := if_pos h
    exact ⟨by rw [Fraction.divide_eq, refused]; rfl, by rw [operate_divide, refused]; rfl⟩
  remainder h := by
    obtain ⟨r, left⟩ : ∃ r, Rational.modulo p q = .ok r := ⟨_, if_neg h⟩
    have isRemainder := (modulo_eq_ok_iff h).1 left
    refine ⟨r, .ofRat (by rw [Fraction.modulo_eq, left]; rfl) (by rw [operate_modulo, left]; rfl), fun s => ?_⟩
    exact ⟨fun other => other.unique isRemainder, fun same => same ▸ isRemainder⟩
  opposite := .ofRat (Fraction.neg_eq p) rfl
  size := Rational.abs_eq p ▸ .ofRat (Fraction.abs_eq p) rfl

/-- Numbers that are built from integers are numbers of the ordered field of rational numbers. -/
theorem inField_of_built {places : Nat} {a b : Construction} {x y : Datum} (ha : a.built places = .ok x)
    (hb : b.built places = .ok y) :
    ∃ p q f g, a.stored = .ok f ∧ b.stored = .ok g ∧ InField places p q x y f g := by
  have left := agree_stored places a
  have right := agree_stored places b
  rw [ha] at left
  rw [hb] at right
  generalize a.stored = storedLeft at left ⊢
  generalize b.stored = storedRight at right ⊢
  cases left with
  | ok p =>
    cases right with
    | ok q => exact ⟨p, q, .ofRat p, .ofRat q, rfl, rfl, inField_ofRat places p q⟩

/-- A negative divisor and a negative power: `6 / (-4)` and `(-2 / 3) ^ (-3)`. -/
theorem inField_of_negative_terms :
    (quotient 6 (-4)).built 10 = .ok (.rational (-3 / 2)) ∧
      (applyInteger .power (quotient (-2) 3) (-3)).built 10 = .ok (.rational (-27 / 8)) ∧
      ∃ p q f g, (quotient 6 (-4)).stored = .ok f ∧ (applyInteger .power (quotient (-2) 3) (-3)).stored = .ok g ∧
        InField 10 p q (.rational (-3 / 2)) (.rational (-27 / 8)) f g :=
  have left : (quotient 6 (-4)).built 10 = .ok (.rational (-3 / 2)) := by cbv
  have right : (applyInteger .power (quotient (-2) 3) (-3)).built 10 = .ok (.rational (-27 / 8)) := by cbv
  ⟨left, right, inField_of_built left right⟩

end Construction

end Reckoner
