import Reckoner.NamedFunction.Basic
import Reckoner.Proofs.Poly.Calculus
/-!
# Derivatives of functions

A function whose body is a number, or a polynomial in its parameter with numbers as coefficients, stands for an element of
Q(i)[X]. Its derivative stands for the derivative of the element and a composition for the composition, so that functions
have the chain rule, besides the laws of differentiation that polynomials have (`differentiation_laws`).
-/

namespace Reckoner

open Polynomial

namespace NamedFunction

/-- The function is one of `x`, and its body stands for `F`. -/
structure Denotes (f : NamedFunction) (x : Text) (F : Gaussian[X]) : Prop where
  parameter : f.parameter = x
  body : f.body.Denotes x F

variable {f g : NamedFunction} {x : Text} {F G : Gaussian[X]}

theorem eval_eq_substitute (f : NamedFunction) (v : Value) : f.eval v = f.body.substitute v := by
  cases body : f.body <;> simp only [eval, Value.substitute, body]

/-- A body is kept in its simplest kind, which stands for the same element, and it is no polynomial in another variable. -/
theorem make_denotes {v : Value} (name : Text) (h : v.Denotes x F) : ∃ f, make name x v = .ok f ∧ f.Denotes x F := by
  have simplest := h.simplify
  unfold make
  split
  next p eq =>
    rw [eq] at simplest
    exact ⟨_, if_pos simplest.1, rfl, simplest⟩
  next => exact ⟨_, rfl, rfl, simplest⟩

theorem Denotes.compose (hf : f.Denotes x F) (hg : g.Denotes x G) : ∃ h, f.compose g = .ok h ∧ h.Denotes x (F.comp G) := by
  obtain ⟨v, value, hv⟩ := hf.body.substitute hg.body
  obtain ⟨h, made, denotes⟩ := make_denotes (f.pairName '∘' g) hv
  refine ⟨h, ?_, denotes⟩
  rw [NamedFunction.compose, withSameParameter, if_pos (hg.parameter.trans hf.parameter.symm), eval_eq_substitute, value,
    hf.parameter]
  exact made

theorem Denotes.derive (hf : f.Denotes x F) : ∃ h, f.derive = .ok h ∧ h.Denotes x (derivative F) := by
  obtain ⟨name, parameter, body⟩ := f
  obtain ⟨rfl, body_F⟩ := hf
  cases body with
  | matrix m => cases body_F
  | polynomial p => exact make_denotes _ (v := .polynomial p.derivative) (Poly.Denotes.derivative body_F)
  | number a =>
    cases body_F
    rw [derivative_C, ← C_0]
    exact make_denotes _ (v := Value.rational 0) rfl

/-- The derivative of a composition is the one of the outer function after the inner function, times the one of the inner
function. -/
def ChainRule (f g : NamedFunction) : Prop :=
  Outcome.Agree (do return (← (← f.compose g).derive).body)
    (do Value.mul (← (← f.derive).compose g).body (← g.derive).body)

theorem Denotes.chainRule (hf : f.Denotes x F) (hg : g.Denotes x G) : ChainRule f g := by
  -- Both sides are run step by step, each step with the element that its outcome stands for.
  obtain ⟨fg, composed, h⟩ := hf.compose hg
  obtain ⟨slope, derived, h⟩ := h.derive
  obtain ⟨f', outer, hf'⟩ := hf.derive
  obtain ⟨after, composed', hf'⟩ := hf'.compose hg
  obtain ⟨g', inner, hg'⟩ := hg.derive
  obtain ⟨r, product, hr⟩ := hf'.body.mul hg'.body
  have left : Outcome.Denotes (do return (← (← f.compose g).derive).body) x (derivative (F.comp G)) :=
    ⟨slope.body, Outcome.bind_eq_ok.2 ⟨fg, composed, Outcome.bind_eq_ok.2 ⟨slope, derived, rfl⟩⟩, h.body⟩
  have right : Outcome.Denotes (do Value.mul (← (← f.derive).compose g).body (← g.derive).body) x
      ((derivative F).comp G * derivative G) :=
    ⟨r, Outcome.bind_eq_ok.2 ⟨f', outer, Outcome.bind_eq_ok.2 ⟨after, composed', Outcome.bind_eq_ok.2 ⟨g', inner, product⟩⟩⟩,
      hr⟩
  rw [derivative_comp, mul_comm] at left
  exact left.agree right

/-- Differentiation of polynomials in one variable with numbers as coefficients is linear, has the product rule and is undone
by the antiderivative, up to the constant. Functions of one parameter with such bodies, or with numbers as bodies, have the
chain rule. Every outcome is a value. -/
theorem differentiation_laws {p q : Poly} (hp : (Value.polynomial p).IsScalar x) (hq : (Value.polynomial q).IsScalar x)
    (c : Number) (shared : g.parameter = f.parameter) (hf : f.body.IsScalar f.parameter)
    (hg : g.body.IsScalar f.parameter) : Poly.Calculus p q c ∧ ChainRule f g := by
  constructor
  · obtain ⟨P, hP⟩ := hp.denotes
    obtain ⟨Q, hQ⟩ := hq.denotes
    exact Poly.calculus_of_denotes ((hP P).2 rfl) ((hQ Q).2 rfl) c
  · obtain ⟨F, hF⟩ := hf.denotes
    obtain ⟨G, hG⟩ := hg.denotes
    exact Denotes.chainRule ⟨rfl, (hF F).2 rfl⟩ ⟨shared, (hG G).2 rfl⟩

/-- The function `f(x) = i * x + 1/2`. -/
def halfTurn : NamedFunction := ⟨['f'], ['x'], .polynomial Datum.slopeOfUnit⟩

theorem differentiation_laws_halfTurn :
    (Value.polynomial Datum.slopeOfUnit).IsScalar ['x'] ∧ (Value.polynomial (.identity ['x'])).IsScalar ['x'] ∧
      Poly.Calculus Datum.slopeOfUnit (.identity ['x']) (.rational 3) ∧ ChainRule halfTurn halfTurn := by
  have slope : (Value.polynomial Datum.slopeOfUnit).IsScalar ['x'] :=
    (Poly.ofTerms_denotes (.cons (.cons Nat.one_pos .nil) (.single 0 ⟨1 / 2, 0⟩))).isScalar
  have unknown : (Value.polynomial (.identity ['x'])).IsScalar ['x'] := (Poly.ofTerms_denotes (.single 1 1)).isScalar
  exact ⟨slope, unknown, differentiation_laws slope unknown (.rational 3) rfl slope slope⟩

end NamedFunction

end Reckoner
