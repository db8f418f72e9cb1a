import Reckoner.Proofs.Gaussian.Reading
import Reckoner.Session.Display
/-!
# What can be shown

Under settings a text is shown whatever the answer is, unless a numeral in the text is too long to be written:
`Display.showAnswer_ofSettings`. What can be written exactly can be shown, if there are no more places than a numeral has
digits: `Settings.writes_of_isWritable`.
-/

namespace Reckoner

/-! ## Values -/

namespace Settings

open Rational

variable (s : Settings)

/-- The text of a rational number, whether or not it can be written. -/
def showPart (q : Rat) : Text := if s.showDecimals then Gaussian.partForm s.decimalPlaces q else text q

/-- Whether the numerals of the text of a rational number are short enough to be written. -/
def writesPart (q : Rat) : Bool := if s.showDecimals then Gaussian.isWritablePart s.decimalPlaces q else isWritable q

/-- Whether the numerals of the text of a value are short enough to be written. -/
def writes : Value → Bool
  | .number x => s.writesPart x.toGaussian.re && s.writesPart x.toGaussian.im
  | v => v.isWritable

/-- The text of a value, whether or not it can be written. -/
def form : Value → Text
  | .number x => x.toGaussian.textWith s.showPart
  | v => v.text

/-- Whether a rational number is shown as a fraction. -/
def showsFraction (q : Rat) : Bool := !isInteger q && !(s.showDecimals && fitsDecimal s.decimalPlaces q)

theorem renders_showPart : Renders s.showPart s.showsFraction := by
  have renders : s.showDecimals = true ∨ s.showDecimals = false := by cases s.showDecimals <;> simp
  rcases renders with decimals | exactly
  · have part : s.showPart = Gaussian.partForm s.decimalPlaces := funext fun q => if_pos decimals
    have fraction : s.showsFraction = fun q => !isInteger q && !fitsDecimal s.decimalPlaces q :=
      funext fun q => by simp [showsFraction, decimals]
    exact part ▸ fraction ▸ Gaussian.renders_partForm s.decimalPlaces
  · have part : s.showPart = text := funext fun q => if_neg (by simp [exactly])
    have fraction : s.showsFraction = fun q => !isInteger q := funext fun q => by simp [showsFraction, exactly]
    exact part ▸ fraction ▸ renders_text

/-- What can be written exactly can be shown, if there are no more places than a numeral has digits. -/
theorem writesPart_of_isWritable {q : Rat} (few : s.decimalPlaces ≤ Text.longestNumeral) (short : isWritable q = true) :
    s.writesPart q = true := by
  rw [writesPart]
  split
  · exact Gaussian.isWritablePart_of_isWritable few short
  · exact short

theorem writes_of_isWritable {v : Value} (few : s.decimalPlaces ≤ Text.longestNumeral) (short : v.isWritable = true) :
    s.writes v = true := by
  cases v with
  | number x =>
    obtain ⟨re, im⟩ := Bool.and_eq_true_iff.1 short
    exact Bool.and_eq_true_iff.2 ⟨s.writesPart_of_isWritable few re, s.writesPart_of_isWritable few im⟩
  | matrix m => exact short
  | polynomial p => exact short

theorem writesPart_zero : s.writesPart 0 = true := by
  have short : isWritable 0 = true := by decide +kernel
  rw [writesPart]
  split
  · exact (if_pos rfl).trans short
  · exact short

theorem writes_rational (q : Rat) : s.writes (.number (.rational q)) = s.writesPart q := by
  rw [writes, Number.toGaussian, Gaussian.ofRat, writesPart_zero, Bool.and_true]

theorem form_rational (q : Rat) : s.form (.number (.rational q)) = s.showPart q := by
  rw [form, Gaussian.textWith]
  exact if_pos rfl

/-- Numbers of both kinds are shown by their parts. -/
theorem showNumber_eq (x : Number) : s.showNumber x = .written (s.writes (.number x)) (s.form (.number x)) := by
  cases x with
  | rational q =>
    rw [writes_rational, form_rational, showNumber, writesPart, showPart, Gaussian.isWritablePart, Gaussian.partForm]
    cases s.showDecimals <;> cases isInteger q <;> cases fitsDecimal s.decimalPlaces q <;> rfl
  | complex z =>
    rw [showNumber]
    split
    next decimals =>
      refine Gaussian.writtenWith_eq (fun q => ?_) z
      rw [Gaussian.partText_eq, writesPart, showPart, if_pos decimals, if_pos decimals]
    next exactly =>
      refine Gaussian.writtenWith_eq (fun q => ?_) z
      rw [writesPart, showPart, if_neg exactly, if_neg exactly]
      rfl

theorem showValue_eq (v : Value) : s.showValue v = .written (s.writes v) (s.form v) := by
  cases v with
  | number x => exact s.showNumber_eq x
  | matrix m => rfl
  | polynomial p => rfl

/-! ## Answers -/

/-- Whether the numerals of what is shown of a definition are short enough to be written. -/
def writesDefinition : Definition → Bool
  | .variable _ v => s.writes v
  | .function f => f.body.isWritable

/-- Whether the numerals of the text of an answer are short enough to be written. -/
def writesAnswer : Answer → Bool
  | .value v => s.writes v
  | .function f => f.body.isWritable
  | .solutions .everything => true
  | .solutions (.values roots) => roots.all fun r => s.writes (.number r)

end Settings

namespace Display

theorem showDefinition_ofSettings (s : Settings) (d : Definition) :
    ∃ shown, (ofSettings s).showDefinition d = .written (s.writesDefinition d) shown := by
  cases d with
  | «variable» name v => exact ⟨_, (showValue_ofSettings s v).trans (s.showValue_eq v)⟩
  | function f => exact ⟨_, rfl⟩

theorem showAnswer_ofSettings (s : Settings) (a : Answer) :
    ∃ shown, (ofSettings s).showAnswer a = .written (s.writesAnswer a) shown := by
  cases a with
  | value v => exact ⟨_, (showValue_ofSettings s v).trans (s.showValue_eq v)⟩
  | function f => exact ⟨_, rfl⟩
  | solutions r =>
    cases r with
    | everything => exact ⟨_, rfl⟩
    | values roots =>
      cases roots with
      | nil => exact ⟨_, rfl⟩
      | cons r roots =>
        have shown : (r :: roots).mapM (ofSettings s).showNumber = .written _ _ :=
          Outcome.mapM_written (fun x => (showNumber_ofSettings s x).trans (s.showNumber_eq x)) (r :: roots)
        refine ⟨Text.join [',', ' '] ((r :: roots).map fun x => s.form (.number x)), ?_⟩
        rw [showAnswer, showSolutions, shown, Settings.writesAnswer]
        · cases (r :: roots).all _ <;> rfl
        · nofun

end Display

end Reckoner
