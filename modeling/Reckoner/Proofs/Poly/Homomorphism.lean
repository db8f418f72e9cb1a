import Reckoner.Proofs.Value.Substitution
/-!
# Evaluation as a homomorphism

What stands for an element of Q(i)[X] stands for its composition with another one as soon as a value of that other one is
put in the place of the variable. Composition is a homomorphism of rings and is associative, and so is evaluation, up to
equality of values.
-/

namespace Reckoner

open Polynomial

/-- The value that comes of `v` when `w` takes the place of its variable; only polynomials have one. -/
def Value.substitute (v w : Value) : Outcome Value :=
  match v with
  | .polynomial p => p.eval w
  | v => .ok v

theorem Value.Denotes.substitute {v w : Value} {x y : Text} {f g : Gaussian[X]} (hv : v.Denotes x f)
    (hw : w.Denotes y g) : ∃ r, v.substitute w = .ok r ∧ r.Denotes y (f.comp g) := by
  cases v with
  | matrix m => cases hv
  | number a =>
    cases hv
    exact ⟨.number a, rfl, C_comp⟩
  | polynomial p =>
    obtain ⟨r, hr, run⟩ := Poly.Denotes.eval hv hw
    exact ⟨r.simplify, run, hr.simplify⟩

/-! ## Outcomes -/

namespace Outcome

/-- The outcome is a value that stands for `f`. -/
def Denotes (o : Outcome Value) (x : Text) (f : Gaussian[X]) : Prop := ∃ v, o = .ok v ∧ v.Denotes x f

/-- Both outcomes are values, and the two are equal. -/
def Agree (a b : Outcome Value) : Prop := ∃ v w, a = .ok v ∧ b = .ok w ∧ v.same w = true

variable {a b : Outcome Value} {x y : Text} {f g : Gaussian[X]}

theorem Denotes.bind {next : Value → Outcome Value} (h : Denotes a x f)
    (each : ∀ v, v.Denotes x f → Denotes (next v) y g) : Denotes (a >>= next) y g := by
  obtain ⟨v, rfl, hv⟩ := h
  exact each v hv

/-- Values that stand for one element are equal. -/
theorem Denotes.agree (ha : Denotes a x f) (hb : Denotes b x f) : Agree a b := by
  obtain ⟨v, rfl, hv⟩ := ha
  obtain ⟨w, rfl, hw⟩ := hb
  exact ⟨v, w, rfl, rfl, (hv.same_iff hw).2 rfl⟩

/-- An operation that stands for one of Q(i)[X] that composition commutes with may be done before a substitution or
after it. -/
theorem Denotes.agree_combine {operation : Value → Value → Outcome Value}
    {ideal : Gaussian[X] → Gaussian[X] → Gaussian[X]} {u v w : Value}
    (exact : ∀ {z s t h k}, Value.Denotes s z h → Value.Denotes t z k → Denotes (operation s t) z (ideal h k))
    (commutes : ∀ h k l, (ideal h k).comp l = ideal (h.comp l) (k.comp l)) {k : Gaussian[X]} (hu : u.Denotes x f)
    (hv : v.Denotes x g) (hw : w.Denotes y k) :
    Agree (do (← operation u v).substitute w) (do operation (← u.substitute w) (← v.substitute w)) := by
  have before : Denotes (do (← operation u v).substitute w) y ((ideal f g).comp k) :=
    (exact hu hv).bind fun _ h => h.substitute hw
  have after : Denotes (do operation (← u.substitute w) (← v.substitute w)) y (ideal (f.comp k) (g.comp k)) :=
    Denotes.bind (hu.substitute hw) fun _ hs => Denotes.bind (hv.substitute hw) fun _ ht => exact hs ht
  rw [commutes] at before
  exact before.agree after

end Outcome

/-! ## Polynomials -/

namespace Poly

variable {p q : Poly} {w : Value} {x y : Text}

/-- Evaluation at `w` commutes with what is computed from `p` and `q`. For the composition, `q` takes the place of the
variable of `p` and then `w` the one of what comes of it, or `w` the one of `q` first. -/
structure EvaluatesAt (p q : Poly) (w : Value) (n : Nat) : Prop where
  sum : Outcome.Agree (do (← Value.add (.polynomial p) (.polynomial q)).substitute w)
    (do Value.add (← p.eval w) (← q.eval w))
  difference : Outcome.Agree (do (← Value.sub (.polynomial p) (.polynomial q)).substitute w)
    (do Value.sub (← p.eval w) (← q.eval w))
  product : Outcome.Agree (do (← Value.mul (.polynomial p) (.polynomial q)).substitute w)
    (do Value.mul (← p.eval w) (← q.eval w))
  power : Outcome.Agree (do (← Value.powerInt n (.polynomial p)).substitute w) (do Value.powerInt n (← p.eval w))
  composition : Outcome.Agree (do (← p.eval (.polynomial q)).substitute w) (do p.eval (← q.eval w))

/-- Evaluation of polynomials with numbers as coefficients, at a number or at such a polynomial, is a homomorphism,
and composition is associative. Every outcome is a value. -/
theorem eval_homomorphism (hp : (Value.polynomial p).IsScalar x) (hq : (Value.polynomial q).IsScalar x)
    (hw : w.IsScalar y) (n : Nat) : EvaluatesAt p q w n := by
  obtain ⟨f, hf⟩ := hp.denotes
  obtain ⟨g, hg⟩ := hq.denotes
  obtain ⟨k, hk⟩ := hw.denotes
  have hf : Value.Denotes (.polynomial p) x f := (hf f).2 rfl
  have hg : Value.Denotes (.polynomial q) x g := (hg g).2 rfl
  have hk : w.Denotes y k := (hk k).2 rfl
  constructor
  case sum => exact Outcome.Denotes.agree_combine Value.Denotes.add (fun _ _ _ => add_comp) hf hg hk
  case difference => exact Outcome.Denotes.agree_combine Value.Denotes.sub (fun _ _ _ => sub_comp) hf hg hk
  case product => exact Outcome.Denotes.agree_combine Value.Denotes.mul (fun _ _ _ => mul_comp _ _ _) hf hg hk
  case power =>
    have raised : ∀ {z v h}, Value.Denotes v z h → Outcome.Denotes (Value.powerInt n v) z (h ^ n) :=
      fun hv => hv.powerInt_of_nonneg (Int.natCast_nonneg n)
    have before : Outcome.Denotes (do (← Value.powerInt n (.polynomial p)).substitute w) y ((f ^ n).comp k) :=
      (raised hf).bind fun _ h => h.substitute hk
    have after : Outcome.Denotes (do Value.powerInt n (← p.eval w)) y (f.comp k ^ n) :=
      Outcome.Denotes.bind (hf.substitute hk) fun _ h => raised h
    rw [pow_comp] at before
    exact before.agree after
  case composition =>
    have before : Outcome.Denotes (do (← p.eval (.polynomial q)).substitute w) y ((f.comp g).comp k) :=
      Outcome.Denotes.bind (hf.substitute hg) fun _ h => h.substitute hk
    have after : Outcome.Denotes (do p.eval (← q.eval w)) y (f.comp (g.comp k)) :=
      Outcome.Denotes.bind (hg.substitute hk) fun _ h => hf.substitute h
    rw [comp_assoc] at before
    exact before.agree after

theorem eval_homomorphism_slopeOfUnit :
    (Value.polynomial Datum.slopeOfUnit).IsScalar ['x'] ∧ (Value.polynomial (.identity ['x'])).IsScalar ['x'] ∧
      (Value.complex ⟨1, 2⟩).IsScalar ['x'] ∧
      EvaluatesAt Datum.slopeOfUnit (.identity ['x']) (Value.complex ⟨1, 2⟩) 3 ∧
      EvaluatesAt (.identity ['x']) Datum.slopeOfUnit (.polynomial Datum.slopeOfUnit) 0 := by
  have slope : (Value.polynomial Datum.slopeOfUnit).IsScalar ['x'] := by
    have terms : Datum.slopeOfUnit.terms = [(1, .scalar ⟨0, 1⟩), (0, .scalar ⟨1 / 2, 0⟩)] := by decide +kernel
    refine ⟨rfl, ?_⟩
    rw [terms]
    exact List.forall_mem_cons.2 ⟨⟨_, rfl⟩, List.forall_mem_singleton.2 ⟨_, rfl⟩⟩
  have unknown : (Value.polynomial (.identity ['x'])).IsScalar ['x'] := by
    have terms : (identity ['x']).terms = [(1, .scalar (Gaussian.ofRat 1))] := by decide +kernel
    refine ⟨rfl, ?_⟩
    rw [terms]
    exact List.forall_mem_singleton.2 ⟨_, rfl⟩
  have number : (Value.complex ⟨1, 2⟩).IsScalar ['x'] := trivial
  exact ⟨slope, unknown, number, eval_homomorphism slope unknown number 3,
    eval_homomorphism unknown slope slope 0⟩

end Poly

end Reckoner
