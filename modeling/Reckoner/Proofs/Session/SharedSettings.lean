import Reckoner.Proofs.Poly.RoundedRoots
import Reckoner.Proofs.Session.Agreement
import Reckoner.Proofs.Session.Failures
import Reckoner.Proofs.Session.Recall
/-!
# What depends on the shared settings

A session has settings of its own, but the decimals of a root are those of the settings that all sessions share.

Main statement: no assignment depends on the shared settings, and an answer or a solution does just if it is that of a
quadratic equation whose roots are rounded. `rootPlaces_of_shared` shows a session that does not keep to its own settings.
-/

namespace Reckoner

/-! ## Equations -/

namespace Environment

variable {env : Environment} {line left right : Text} {places places' : Nat} {p : Poly}

/-- Whether the line is an equation that can be solved, and its solutions are rounded. -/
def RoundsRoots (env : Environment) (line : Text) : Prop :=
  ∃ left right p, equationSides line = .ok (left, right) ∧ ¬1 < (env.unknowns left right).length ∧
    (env.difference left right line (env.unknowns left right).head?).outcome = .ok p ∧ p.RoundsRoots

theorem solveEquation_congr (h : ¬env.RoundsRoots line) (places places' : Nat) :
    env.solveEquation places line = env.solveEquation places' line := by
  simp only [solveEquation]
  refine Traced.bind_congr ?_
  rintro ⟨left, right⟩ cut
  dsimp only
  split
  next => rfl
  next single =>
    refine Traced.bind_congr fun p difference => ?_
    have exact : ¬p.RoundsRoots := fun rounds => h ⟨left, right, p, cut, single, difference, rounds⟩
    rw [p.solve_congr exact places places']

theorem outcome_solveEquation (cut : equationSides line = .ok (left, right))
    (single : ¬1 < (env.unknowns left right).length)
    (difference : (env.difference left right line (env.unknowns left right).head?).outcome = .ok p) (places : Nat) :
    (env.solveEquation places line).outcome = p.solve places := by
  rw [solveEquation, Traced.outcome_bind, Traced.outcome_monadLift, cut]
  show (if 1 < (env.unknowns left right).length then _ else _ : Traced Solutions).outcome = _
  rw [if_neg single]
  simp only [Traced.outcome_bind, Traced.outcome_monadLift, Traced.outcome_record, Traced.outcome_pure, difference]
  exact bind_pure (p.solve places)

/-- Rounded solutions are found with some number of decimals, and not with so many that rounding has no meaning; wherever
they are not found, it has none. -/
theorem RoundsRoots.outcome (h : env.RoundsRoots line) : (∃ places s, (env.solveEquation places line).outcome = .ok s) ∧
    (env.solveEquation (Rational.greatestPlaces + 1) line).outcome = .error .meaningless ∧
      ∀ places e, (env.solveEquation places line).outcome = .error e → e = .meaningless := by
  obtain ⟨left, right, p, cut, single, difference, rounds⟩ := h
  simp only [outcome_solveEquation cut single difference]
  exact rounds.solve

/-- Whether the line is answered with solutions that are rounded, and with some number of decimals they can be shown under
some settings. -/
def RoundsAnswer (env : Environment) (settings : Settings) (line : Text) : Prop :=
  Line.classify line = .ok .equation ∧ env.RoundsRoots line ∧
    ∃ places s, (env.solveEquation places line).outcome = .ok s ∧ settings.writesAnswer (.solutions s) = true

theorem outcome_answer_equation (classified : Line.classify line = .ok .equation) (places : Nat) :
    (env.answer places line).outcome = (env.solveEquation places line).outcome.map .solutions := by
  rw [answer, Traced.outcome_bind, Traced.outcome_monadLift, classified]
  show ((env.solveEquation places line) >>= fun s => pure (Answer.solutions s)).outcome = _
  rw [Traced.outcome_bind]
  cases (env.solveEquation places line).outcome <;> rfl

theorem answer_congr (h : Line.classify line = .ok .equation → ¬env.RoundsRoots line) (places places' : Nat) :
    env.answer places line = env.answer places' line := by
  simp only [answer]
  refine Traced.bind_congr fun kind classified => ?_
  split
  next => rw [solveEquation_congr (h classified) places places']
  next => rfl

end Environment

/-! ## Sessions -/

namespace Session

variable {env : Environment} {own shared shared' : Settings} {line : Text}

/-- A session with settings of its own. -/
def under (own shared : Settings) (env : Environment) : Session := ⟨.ofSettings own, shared, env⟩

theorem outcome_solve (own shared : Settings) (env : Environment) (line : Text) :
    ((under own shared env).solve line).outcome = (env.solveEquation shared.rootPlaces line).outcome :=
  Traced.outcome_reporting ..

theorem outcome_compute_under (own shared : Settings) (env : Environment) (line : Text) :
    ((under own shared env).compute line).outcome =
      (env.answer shared.rootPlaces line).outcome >>= (Display.ofSettings own).showAnswer :=
  outcome_compute (s := under own shared env) env

/-- The shown answer to an equation under any settings. -/
theorem outcome_compute_equation (classified : Line.classify line = .ok .equation) (own shared : Settings) :
    ((under own shared env).compute line).outcome = (env.solveEquation shared.rootPlaces line).outcome >>= fun s =>
      (Display.ofSettings own).showAnswer (.solutions s) := by
  rw [outcome_compute_under, Environment.outcome_answer_equation classified]
  cases (env.solveEquation shared.rootPlaces line).outcome <;> rfl

/-- Rounded solutions that can never be shown are answered alike whatever the number of decimals is. -/
theorem outcome_compute_of_unshown (classified : Line.classify line = .ok .equation) (rounds : env.RoundsRoots line)
    (h : ¬env.RoundsAnswer own line) (shared : Settings) :
    ((under own shared env).compute line).outcome = .error .meaningless := by
  rw [outcome_compute_equation classified]
  cases found : (env.solveEquation shared.rootPlaces line).outcome with
  | error e =>
    obtain rfl := rounds.outcome.2.2 _ _ found
    rfl
  | ok s =>
    obtain ⟨shown, written⟩ := Display.showAnswer_ofSettings own (.solutions s)
    refine written.trans (Outcome.written_eq_error.2 ⟨?_, rfl⟩)
    exact Bool.eq_false_iff.2 fun writes => h ⟨classified, rounds, _, s, found, writes⟩

/-- Shared settings with any number of decimals. -/
def withPlaces (places : Nat) : Settings := { rootPlaces := places }

theorem rootPlaces_withPlaces (places : Nat) : (withPlaces places).rootPlaces = places := rfl

/-- Rounded solutions tell apart shared settings with which rounding has a meaning and has none. -/
theorem outcome_solve_eq_iff :
    (∀ shared shared', ((under own shared env).solve line).outcome = ((under own shared' env).solve line).outcome) ↔
      ¬env.RoundsRoots line := by
  constructor
  · intro same rounds
    obtain ⟨⟨places, s, found⟩, unfound, -⟩ := rounds.outcome
    have equal := same (withPlaces places) (withPlaces (Rational.greatestPlaces + 1))
    rw [outcome_solve, outcome_solve, rootPlaces_withPlaces, rootPlaces_withPlaces, found, unfound] at equal
    cases equal
  · intro exact shared shared'
    rw [outcome_solve, outcome_solve, Environment.solveEquation_congr exact shared.rootPlaces shared'.rootPlaces]

theorem outcome_compute_eq_iff :
    (∀ shared shared', ((under own shared env).compute line).outcome = ((under own shared' env).compute line).outcome) ↔
      ¬env.RoundsAnswer own line := by
  constructor
  · rintro same ⟨classified, rounds, places, s, found, writes⟩
    obtain ⟨shown, written⟩ := Display.showAnswer_ofSettings own (.solutions s)
    rw [writes] at written
    have equal := same (withPlaces places) (withPlaces (Rational.greatestPlaces + 1))
    rw [outcome_compute_equation classified, outcome_compute_equation classified, rootPlaces_withPlaces,
      rootPlaces_withPlaces, found, rounds.outcome.2.1] at equal
    cases written.symm.trans equal
  · intro exact shared shared'
    by_cases unshown : Line.classify line = .ok .equation ∧ env.RoundsRoots line
    · rw [outcome_compute_of_unshown unshown.1 unshown.2 exact, outcome_compute_of_unshown unshown.1 unshown.2 exact]
    · rw [outcome_compute_under, outcome_compute_under, Environment.answer_congr
        (fun classified rounds => unshown ⟨classified, rounds⟩) shared.rootPlaces shared'.rootPlaces]

/-- What a line does in sessions with settings `own` under any two shared settings. -/
structure SharedEffect (own : Settings) (env : Environment) (line : Text) : Prop where
  assign : ∀ shared shared', ((under own shared env).assign line).2 = ((under own shared' env).assign line).2 ∧
    ((under own shared env).assign line).1.environment = ((under own shared' env).assign line).1.environment
  samePlaces : ∀ shared shared' : Settings, shared.rootPlaces = shared'.rootPlaces →
    (under own shared env).solve line = (under own shared' env).solve line ∧
      (under own shared env).compute line = (under own shared' env).compute line
  solve : (∀ shared shared', ((under own shared env).solve line).outcome = ((under own shared' env).solve line).outcome) ↔
    ¬env.RoundsRoots line
  compute : (∀ shared shared',
      ((under own shared env).compute line).outcome = ((under own shared' env).compute line).outcome) ↔
    ¬env.RoundsAnswer own line

theorem shared_effect (own : Settings) (env : Environment) (line : Text) : SharedEffect own env line where
  assign shared shared' := by
    refine ⟨rfl, ?_⟩
    simp only [Session.assign, afterDefinition, under]
    cases (env.assign line).outcome <;> rfl
  samePlaces shared shared' same := by
    simp only [Session.solve, Session.compute, answer, under, same, and_self]
  solve := outcome_solve_eq_iff
  compute := outcome_compute_eq_iff

theorem shared_effect_squareRoot :
    Environment.RoundsAnswer {} {} "x^2 = 2 ?".toList ∧ SharedEffect {} {} "x^2 = 2 ?".toList := by
  have inexact : ¬Poly.SquareDiscriminant 1 0 (-2) := by
    rintro ⟨s, square⟩
    have root := Rational.exactRoot?_square s
    have none : Rational.exactRoot? (Rational.abs (0 * 0 - 4 * 1 * -2)) = none := by decide +kernel
    rw [← square, none] at root
    cases root
  let p : Poly := .ofTerms ['x'] [(2, .ofRat 1), (0, .ofRat (-2))]
  have quadratic : p.IsQuadratic 1 0 (-2) := ⟨by decide +kernel, by decide +kernel, by decide +kernel, by decide +kernel⟩
  have found : Poly.quadraticRoots 3 1 0 (-2) = .ok [.rational (-707 / 500), .rational (707 / 500)] := by decide +kernel
  have rounds : p.RoundsRoots := ⟨1, 0, -2, quadratic, inexact, 3, Poly.rooted_of_quadraticRoots found⟩
  have classified : Line.classify "x^2 = 2 ?".toList = .ok .equation := by decide +kernel
  exact ⟨⟨classified, ⟨"x^2".toList, ['2'], p, by decide +kernel, by decide +kernel, by decide +kernel, rounds⟩, 3,
    .values [.rational (-707 / 500), .rational (707 / 500)], by decide +kernel, by decide +kernel⟩, shared_effect {} {} _⟩

/-- A session of which the own settings ask for roots with ten decimals gives roots with three. -/
theorem rootPlaces_of_shared :
    ((under { rootPlaces := 10 } { rootPlaces := 3 } {}).compute "x^2 = 2 ?".toList).outcome =
        .ok "-1.414, 1.414".toList ∧
      ((under { rootPlaces := 10 } { rootPlaces := 10 } {}).compute "x^2 = 2 ?".toList).outcome =
        .ok "-1.4142135624, 1.4142135624".toList := by
  decide +kernel

end Session

end Reckoner
