import Reckoner.Proofs.Session.Reading
/-!
# Shown numbers are literals

Every text that shows a number is a literal of that number, under every display: nothing is rounded, and the sign that
parts a real part from an imaginary one is never taken for another. Main statement: rational and complex numbers are
read back exactly from each of their texts, with their parts in either order. A text is shown just if its numerals are
short enough; that of a decimal is too long where many places are asked for, also where the number itself is small.
-/

namespace Reckoner.Display

/-- Numbers are read back from their exact texts, from their texts with decimals and from what a display shows, wherever
these can be written. -/
theorem shown_literals (s : Settings) (usual places : Nat) (q : Rat) (z : Gaussian) :
    (Rational.written q = .written (Rational.isWritable q) (Rational.text q) ∧ Rational.parse (Rational.text q) = .ok q) ∧
      (z.written = .written z.isWritable z.text ∧ Gaussian.parse z.text = .ok z) ∧
        (Datum.complexText usual (.integer places) z =
            .written (Gaussian.isWritablePart places z.re && Gaussian.isWritablePart places z.im)
              (z.textWith (Gaussian.partForm places)) ∧
          Gaussian.parse (z.textWith (Gaussian.partForm places)) = .ok z) ∧
          ((ofSettings s).showValue (.rational q) = .written (s.writesPart q) (s.showPart q) ∧
            Rational.parse (s.showPart q) = .ok q) ∧
            ((ofSettings s).showValue (.complex z) =
                .written (s.writesPart z.re && s.writesPart z.im) (z.textWith s.showPart) ∧
              Gaussian.parse (z.textWith s.showPart) = .ok z) ∧
              Gaussian.parse (z.swappedWith Rational.text) = .ok z ∧
                Gaussian.parse (z.swappedWith (Gaussian.partForm places)) = .ok z ∧
                  Gaussian.parse (z.swappedWith s.showPart) = .ok z ∧
                    (Rational.isWritable q = true →
                      (places ≤ Text.longestNumeral → Gaussian.isWritablePart places q = true) ∧
                        (s.decimalPlaces ≤ Text.longestNumeral → s.writesPart q = true)) := by
  have exactly := Rational.renders_text
  have decimals := Gaussian.renders_partForm places
  have shown := s.renders_showPart
  have decimalText : Datum.complexText usual (.integer places) z = z.decimalText places := by
    simp [Datum.complexText, Datum.natural?]
  refine ⟨⟨rfl, (exactly.shows q).parse⟩, ⟨z.written_eq, Gaussian.parse_textWith exactly z⟩,
    ⟨decimalText.trans (z.decimalText_eq places), Gaussian.parse_textWith decimals z⟩, ⟨?_, (shown.shows q).parse⟩,
    ⟨(showValue_ofSettings s _).trans (s.showNumber_eq (.complex z)), Gaussian.parse_textWith shown z⟩,
    Gaussian.parse_swappedWith exactly z, Gaussian.parse_swappedWith decimals z, Gaussian.parse_swappedWith shown z,
    fun short => ⟨fun few => Gaussian.isWritablePart_of_isWritable few short,
      fun few => s.writesPart_of_isWritable few short⟩⟩
  have value := (showValue_ofSettings s (.rational q)).trans (s.showNumber_eq (.rational q))
  rwa [s.writes_rational, s.form_rational] at value

/-- Numbers with decimals, under the usual settings. -/
theorem shown_literals_decimals :
    Rational.isWritable (1 / 2) = true ∧ 10 ≤ Text.longestNumeral ∧ ({} : Settings).decimalPlaces ≤ Text.longestNumeral ∧
      (ofSettings {}).showValue (.rational (1 / 2)) = .ok (Settings.showPart {} (1 / 2)) ∧
        Rational.parse (Settings.showPart {} (1 / 2)) = .ok (1 / 2) := by
  have short : Rational.isWritable (1 / 2) = true := by decide +kernel
  have few : 10 ≤ Text.longestNumeral := by decide +kernel
  obtain ⟨-, -, -, ⟨shown, read⟩, -, -, -, -, writes⟩ := shown_literals {} 10 10 (1 / 2) ⟨1 / 2, -3 / 4⟩
  rw [(writes short).2 few] at shown
  exact ⟨short, few, few, shown, read⟩

/-- A half has no text with five thousand places, and is not shown where so many are set, nor is a number with this part. -/
theorem half_unshown :
    Datum.complexText 10 (.integer 5000) ⟨1 / 2, 1⟩ = .error .meaningless ∧
      (ofSettings { decimalPlaces := 5000 }).showValue (.rational (1 / 2)) = .error .meaningless ∧
        (ofSettings { decimalPlaces := 5000 }).showValue (.complex ⟨1 / 2, 1⟩) = .error .meaningless := by
  decide +kernel

end Reckoner.Display
