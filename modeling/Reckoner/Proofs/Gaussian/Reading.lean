import Reckoner.Gaussian.Literal
import Reckoner.Proofs.Rational.Reading
/-!
# Complex numbers as they are shown

The two parts are shown as rational numbers are, and the imaginary unit stands at the very end if it is there at all. Main
statement: a text that shows a number is a literal of the number, and so are the texts of its parts in the other order.
-/

namespace Reckoner

/-! ## Small letters -/

namespace Text

open CharClass

/-- Characters that are their own small form make up a text that is. -/
theorem lower_eq_self {t : Text} (h : ∀ c ∈ t, small c = c ∧ c ≠ '\u0130' ∧ c ≠ '\u03a3') : lower t = t := by
  have after : ∀ before, lowerAfter before t = t := by
    induction t with
    | nil => exact fun _ => rfl
    | cons c t ih =>
      intro before
      obtain ⟨⟨plain, dotted, sigma⟩, later⟩ := List.forall_mem_cons.1 h
      rw [lowerAfter, ih later, smallBetween, if_neg dotted, if_neg sigma, plain]
      rfl
  exact after []

end Text

namespace Gaussian

open Text Rational

/-! ## Parts of literals -/

/-- A text without signs. -/
def Signless (t : Text) : Prop := ∀ c ∈ t, c ≠ '+' ∧ c ≠ '-'

theorem cutAtLastSign?_eq_none {t : Text} (h : Signless t) : cutAtLastSign? t = none := by
  induction t with
  | nil => rfl
  | cons c t ih =>
    obtain ⟨first, later⟩ := List.forall_mem_cons.1 h
    rw [cutAtLastSign?, ih later]
    exact if_neg (not_or.2 first)

theorem cutAtLastSign?_append (front : Text) {c : Char} (sign : c = '+' ∨ c = '-') {rest : Text} (h : Signless rest) :
    cutAtLastSign? (front ++ c :: rest) = some (front, c :: rest) := by
  induction front with
  | nil =>
    rw [List.nil_append, cutAtLastSign?, cutAtLastSign?_eq_none h]
    exact if_pos sign
  | cons d front ih => rw [List.cons_append, cutAtLastSign?, ih]

/-- A text is not cut at a sign at its start. -/
theorem cutParts_whole {t : Text} (h : Signless t.tail) : cutParts t = ([], t) := by
  cases t with
  | nil => rfl
  | cons d t =>
    rw [List.tail_cons] at h
    rw [cutParts, cutAtLastSign?_eq_none h]

theorem cutParts_sign {s t : Text} {c : Char} (nonempty : s ≠ []) (sign : c = '+' ∨ c = '-') (signless : Signless t) :
    cutParts (s ++ c :: t) = (s, c :: t) := by
  obtain ⟨d, s, rfl⟩ := List.exists_cons_of_ne_nil nonempty
  rw [List.cons_append, cutParts, cutAtLastSign?_append s sign signless]

variable {sign size : Text} {e : Rat}

/-- One part is not cut. -/
theorem cutParts_part (signed : Sign sign e) (h : Signless size) : cutParts (sign ++ size) = ([], sign ++ size) := by
  refine cutParts_whole ?_
  cases signed with
  | none => exact fun c mem => h c (List.mem_of_mem_tail mem)
  | plus => exact h
  | minus => exact h

/-- Two parts are cut at the sign of the second one. -/
theorem cutParts_append {front : Text} (nonempty : front ≠ []) (signed : Sign sign e) (given : sign ≠ [])
    (h : Signless size) : cutParts (front ++ (sign ++ size)) = (front, sign ++ size) := by
  cases signed with
  | none => exact absurd rfl given
  | plus => exact cutParts_sign nonempty (.inl rfl) h
  | minus => exact cutParts_sign nonempty (.inr rfl) h

/-- The size of an imaginary part, with the unit at its end; a size of one is left out. -/
inductive UnitSize : Text → Rat → Prop where
  | unit : UnitSize ['i'] 1
  | multiple {fraction t q} : Size fraction t q → UnitSize (t ++ ['i']) q

namespace UnitSize

variable {t : Text} {q : Rat}

theorem signless (h : UnitSize t q) : Signless t := by
  cases h with
  | unit => exact List.forall_mem_singleton.2 (by decide)
  | multiple size_q =>
    exact List.forall_mem_append.2 ⟨size_q.forall_mem (by decide), List.forall_mem_singleton.2 (by decide)⟩

theorem unit_mem (h : UnitSize t q) : 'i' ∈ t := by
  cases h <;> simp

theorem subset (signed : Sign sign e) (h : UnitSize t q) : sign ++ t ⊆ 'i' :: marks := by
  refine List.append_subset.2 ⟨signed.forall_mem (by decide), ?_⟩
  cases h with
  | unit => decide
  | multiple size_q => exact List.append_subset.2 ⟨List.subset_cons_of_subset 'i' size_q.subset_marks, by decide⟩

/-- An imaginary part is read as the coefficient of the unit. -/
theorem readImaginary? (signed : Sign sign e) (h : UnitSize t q) : readImaginary? (sign ++ t) = .ok (some (e * q)) := by
  cases h with
  | unit => cases signed <;> decide +kernel
  | @multiple fraction t q size_q =>
    have unit : chop? 'i' (sign ++ (t ++ ['i'])) = some (sign ++ t) := by simp [chop?, ← List.append_assoc]
    have single : 'i' ∉ sign ++ t := List.forall_mem_ne'.1
      (List.forall_mem_append.2 ⟨signed.forall_mem (by decide), size_q.forall_mem (by decide)⟩)
    have star : chop? '*' (sign ++ t) = none := if_neg fun last => List.forall_mem_ne'.1
      (List.forall_mem_append.2 ⟨signed.forall_mem (by decide), size_q.forall_mem (by decide)⟩)
        (List.mem_of_getLast? last)
    obtain ⟨c, rest, rfl, digit⟩ := size_q.head_isDigit
    have plus : c ≠ '+' := by rintro rfl; cases digit
    have minus : c ≠ '-' := by rintro rfl; cases digit
    have coefficient : ¬(sign ++ c :: rest = [] ∨ sign ++ c :: rest = ['+']) ∧ sign ++ c :: rest ≠ ['-'] := by
      cases signed <;> simp [plus, minus]
    rw [Gaussian.readImaginary?, unit]
    simp only [List.contains_eq_mem, single, star, Option.getD_none, decide_false, Bool.false_eq_true, if_false]
    rw [if_neg coefficient.1, if_neg coefficient.2, readImaginary?.readRational?, size_q.parse signed]

end UnitSize

/-! ## Literals -/

theorem cleaned_eq {t : Text} (h : t ⊆ 'i' :: marks) : lower (withoutSpaces t) = t := by
  have plain : ∀ {p : Char → Prop} [DecidablePred p], ('i' :: marks).all (p ·) = true → ∀ c ∈ t, p c :=
    fun all c hc => forall_of_all all c (h hc)
  have spaces : withoutSpaces t = t := List.filter_eq_self.2 (plain (by decide))
  rw [spaces]
  exact lower_eq_self (plain (by decide))

/-- A literal without the unit is a rational one. -/
theorem parse_of_rational {t : Text} {q : Rat} (subset : t ⊆ marks) (nonempty : t ≠ [])
    (h : Rational.parse t = .ok q) : parse t = .ok ⟨q, 0⟩ := by
  have noUnit : 'i' ∉ t := fun unit => absurd (subset unit) (by decide)
  simp only [parse, cleaned_eq (fun c hc => List.mem_cons_of_mem 'i' (subset hc))]
  rw [if_neg (by simpa using nonempty), if_pos (by simpa using noUnit), h]
  rfl

/-- A literal with the unit has the number of its two parts, of which the real one may be missing. -/
theorem parse_of_parts {t realText imaginaryText : Text} {re im : Rat} (subset : t ⊆ 'i' :: marks)
    (parts : parts? t = some (realText, imaginaryText))
    (real : realText = [] ∧ re = 0 ∨ realText ≠ [] ∧ Rational.parse realText = .ok re)
    (imaginary : readImaginary? imaginaryText = .ok (some im)) (unit : 'i' ∈ t) : parse t = .ok ⟨re, im⟩ := by
  simp only [parse, cleaned_eq subset, parts]
  rw [if_neg (by simpa using List.ne_nil_of_mem unit), if_neg (by simpa using unit)]
  rcases real with ⟨rfl, rfl⟩ | ⟨nonempty, real⟩
  · rw [List.isEmpty_nil, if_pos rfl, pure_bind, imaginary]
    rfl
  · rw [if_neg (by simpa using nonempty), readImaginary?.readRational?, real]
    show (readImaginary? imaginaryText >>= _) = _
    rw [imaginary]
    rfl

/-- An imaginary part by itself. -/
theorem parse_part {q : Rat} (signed : Sign sign e) (h : UnitSize size q) : parse (sign ++ size) = .ok ⟨0, e * q⟩ := by
  have unit : 'i' ∈ sign ++ size := List.mem_append_right sign h.unit_mem
  refine parse_of_parts (h.subset signed) ?_ (.inl ⟨rfl, rfl⟩) (h.readImaginary? signed) unit
  rw [parts?, cutParts_part signed h.signless]
  simp [unit]

/-- A multiple of the unit reads back as itself. -/
theorem parse_imaginary {t : Text} {q : Rat} (h : IsDecimal t q) : parse (t ++ ['i']) = .ok ⟨0, q⟩ := by
  simpa using parse_part .none (.multiple (.decimal h))

theorem parse_unit : parse ['i'] = .ok ⟨0, 1⟩ := by
  simpa using parse_part .none .unit

/-- A real part, and an imaginary one with a sign. -/
theorem parse_real_imaginary {front : Text} {p q : Rat} (subset : front ⊆ marks) (nonempty : front ≠ [])
    (real : Rational.parse front = .ok p) (signed : Sign sign e) (given : sign ≠ []) (h : UnitSize size q) :
    parse (front ++ (sign ++ size)) = .ok ⟨p, e * q⟩ := by
  have noUnit : 'i' ∉ front := fun unit => absurd (subset unit) (by decide)
  have unit : 'i' ∈ sign ++ size := List.mem_append_right sign h.unit_mem
  refine parse_of_parts (List.append_subset.2 ⟨List.subset_cons_of_subset 'i' subset, h.subset signed⟩) ?_
    (.inr ⟨nonempty, real⟩) (h.readImaginary? signed) (List.mem_append_right front unit)
  rw [parts?, cutParts_append nonempty signed given h.signless]
  simp [noUnit, unit]

/-- An imaginary part, and a real one with a sign. -/
theorem parse_imaginary_real {sign' size' : Text} {e' p q : Rat} {fraction : Bool} (signed : Sign sign e)
    (h : UnitSize size q) (signed' : Sign sign' e') (given : sign' ≠ []) (h' : Size fraction size' p) :
    parse ((sign ++ size) ++ (sign' ++ size')) = .ok ⟨e' * p, e * q⟩ := by
  have subset : sign' ++ size' ⊆ marks := List.append_subset.2 ⟨signed'.forall_mem (by decide), h'.subset_marks⟩
  have noUnit : 'i' ∉ sign' ++ size' := fun unit => absurd (subset unit) (by decide)
  have unit : 'i' ∈ sign ++ size := List.mem_append_right sign h.unit_mem
  refine parse_of_parts (List.append_subset.2 ⟨h.subset signed, List.subset_cons_of_subset 'i' subset⟩) ?_
    (.inr ⟨by simp [given], h'.parse signed'⟩) (h.readImaginary? signed) (List.mem_append_left _ unit)
  rw [parts?, cutParts_append (List.ne_nil_of_mem unit) signed' given (h'.forall_mem (by decide))]
  simp [noUnit, unit]

/-! ## Shown numbers -/

/-- The text of a part, whether or not it can be written. -/
def partForm (places : Nat) (q : Rat) : Text :=
  if isInteger q || !fitsDecimal places q then Rational.text q else roundedText places q

/-- Whether the numerals of the text of a part are short enough to be written. -/
def isWritablePart (places : Nat) (q : Rat) : Bool :=
  if isInteger q || !fitsDecimal places q then Rational.isWritable q else isWritableTo places q

theorem partText_eq (places : Nat) (q : Rat) : partText places q = .written (isWritablePart places q) (partForm places q) := by
  rw [partText, isWritablePart, partForm]
  split <;> rfl

/-- What can be written exactly can be written with decimals too, if there are no more places than a numeral has digits. -/
theorem isWritablePart_of_isWritable {places : Nat} {q : Rat} (few : places ≤ longestNumeral)
    (short : Rational.isWritable q = true) : isWritablePart places q = true := by
  rw [isWritablePart]
  split
  next => exact short
  next decimal =>
    have fits : fitsDecimal places q = true := by simp_all
    have scale : (0 : Rat) < 10 ^ places := by positivity
    refine isWritableTo_iff.2 ⟨?_, ?_⟩
    · have above : q.num.natAbs < 10 ^ longestNumeral := decide_eq_true_iff.1 (Bool.and_eq_true_iff.1 short).1
      rw [roundedTo_of_fitsDecimal fits, ← natAbs_div_den, Nat.floor_div_eq_div]
      exact (Nat.div_le_self _ _).trans_lt above
    · calc Int.fract |roundedTo places q| * 10 ^ places < 1 * 10 ^ places :=
            mul_lt_mul_of_pos_right (Int.fract_lt_one _) scale
        _ ≤ 10 ^ longestNumeral := by rw [one_mul]; exact pow_le_pow_right₀ (by norm_num) few

/-- A part is shown as a decimal number or as a fraction, by the decimals that it has. -/
theorem renders_partForm (places : Nat) :
    Renders (partForm places) fun q => !isInteger q && !fitsDecimal places q where
  shows q := by
    rw [partForm]
    cases whole : isInteger q <;> cases fits : fitsDecimal places q
    · simpa [whole] using shows_text q
    · simpa using shows_roundedText fits
    · simpa [whole] using shows_text q
    · simpa [whole] using shows_text q
  integer q whole := by simp [whole]

/-- The text is put together from the texts of the parts of the number, and no other. -/
theorem textWith_congr {render render' : Rat → Text} {z : Gaussian} (re : render z.re = render' z.re)
    (im : render z.im = render' z.im) : z.textWith render = z.textWith render' := by
  have imaginary : imaginaryTextWith render z.im = imaginaryTextWith render' z.im := by
    rw [imaginaryTextWith, imaginaryTextWith, im]
  rw [textWith, textWith, re, imaginary]

/-- A number can be written if its parts can. -/
theorem writtenWith_eq {write : Rat → Outcome Text} {short : Rat → Bool} {render : Rat → Text}
    (h : ∀ q, write q = .written (short q) (render q)) (z : Gaussian) :
    z.writtenWith write = .written (short z.re && short z.im) (z.textWith render) := by
  rw [writtenWith, h, h]
  cases hi : short z.im with
  | false => rw [Bool.and_false]; rfl
  | true =>
    cases hr : short z.re with
    | false => rfl
    | true =>
      refine congrArg Except.ok (textWith_congr (if_pos rfl) ?_)
      split
      next same => rw [same]
      next => rfl

theorem written_eq (z : Gaussian) : z.written = .written z.isWritable z.text := writtenWith_eq (fun _ => rfl) z

theorem decimalText_eq (places : Nat) (z : Gaussian) : z.decimalText places =
    .written (isWritablePart places z.re && isWritablePart places z.im) (z.textWith (partForm places)) :=
  writtenWith_eq (partText_eq places) z

section

variable {render : Rat → Text} {fraction : Rat → Bool} (h : Renders render fraction)
include h

theorem imaginaryTextWith_eq (q : Rat) : ∃ front ⊆ marks, imaginaryTextWith render q = front ++ ['i'] := by
  unfold imaginaryTextWith
  split
  · exact ⟨[], by decide, rfl⟩
  split
  · exact ⟨['-'], by decide, rfl⟩
  · exact ⟨render q, (h.shows q).subset_marks, rfl⟩

/-- The unit stands at the end or nowhere. -/
theorem textWith_eq (z : Gaussian) :
    ∃ front ⊆ marks, z.textWith render = front ∧ front ≠ [] ∨ z.textWith render = front ++ ['i'] := by
  have real : render z.re ⊆ marks := (h.shows z.re).subset_marks
  obtain ⟨front, imaginary, shown⟩ := imaginaryTextWith_eq h z.im
  simp only [textWith, shown]
  split
  · exact ⟨_, real, .inl ⟨rfl, (h.shows z.re).ne_nil⟩⟩
  split
  · exact ⟨front, imaginary, .inr rfl⟩
  split
  · exact ⟨render z.re ++ front, List.append_subset.2 ⟨real, imaginary⟩, .inr (by rw [List.append_assoc])⟩
  · refine ⟨render z.re ++ '+' :: front, ?_, .inr (by simp)⟩
    exact List.append_subset.2 ⟨real, List.cons_subset.2 ⟨by decide, imaginary⟩⟩

/-- What holds of the unit and the characters of rational numbers holds of every character. -/
theorem textWith_forall_mem (z : Gaussian) {p : Char → Prop} [DecidablePred p] (all : ('i' :: marks).all (p ·) = true) :
    ∀ c ∈ z.textWith render, p c := by
  obtain ⟨unit, each⟩ := List.forall_mem_cons.1 (forall_of_all all)
  obtain ⟨front, subset, ⟨shown, -⟩ | shown⟩ := textWith_eq h z
  · rw [shown]
    exact fun c hc => each c (subset hc)
  · rw [shown]
    exact List.forall_mem_append.2 ⟨fun c hc => each c (subset hc), by simpa using unit⟩

theorem textWith_ne_nil (z : Gaussian) : z.textWith render ≠ [] := by
  obtain ⟨front, -, ⟨shown, some⟩ | shown⟩ := textWith_eq h z
  · rwa [shown]
  · simp [shown]

end

/-! ## Two parts -/

/-- A text with a sign in front: a plus sign unless it starts with a minus sign. -/
def withSign (t : Text) : Text := if t.head? = some '-' then t else '+' :: t

/-- The imaginary part first, and then the real part with its sign. -/
def swappedWith (render : Rat → Text) (z : Gaussian) : Text :=
  imaginaryTextWith render z.im ++ withSign (render z.re)

theorem withSign_append (signed : Sign sign e) (notPlus : sign ≠ ['+']) (positive : size.head? ≠ some '-') :
    ∃ shown, withSign (sign ++ size) = shown ++ size ∧ Sign shown e ∧ shown ≠ [] := by
  cases signed with
  | none => exact ⟨['+'], if_neg positive, .plus, by simp⟩
  | plus => exact absurd rfl notPlus
  | minus => exact ⟨['-'], if_pos rfl, .minus, by simp⟩

section

variable {render : Rat → Text} {fraction : Rat → Bool} (h : Renders render fraction)
include h

/-- An imaginary part is shown as the size of it, with a minus sign in front where the part is negative. -/
theorem exists_unitSize (q : Rat) : ∃ sign e size r, Sign sign e ∧ sign ≠ ['+'] ∧ UnitSize size r ∧
    imaginaryTextWith render q = sign ++ size ∧ q = e * r := by
  unfold imaginaryTextWith
  split
  next one => exact ⟨[], 1, ['i'], 1, .none, by simp, .unit, rfl, by rw [one, one_mul]⟩
  split
  next minusOne => exact ⟨['-'], -1, ['i'], 1, .minus, by simp, .unit, rfl, by rw [minusOne, mul_one]⟩
  next =>
    obtain ⟨sign, e, size, r, signed, notPlus, size_r, shown, value⟩ := (h.shows q).exists_sign
    exact ⟨sign, e, size ++ ['i'], r, signed, notPlus, .multiple size_r, by rw [shown, List.append_assoc], value⟩

/-- What is shown of a number reads back as the number. -/
theorem parse_textWith (z : Gaussian) : parse (z.textWith render) = .ok z := by
  obtain ⟨re, im⟩ := z
  have real := h.shows re
  obtain ⟨sign, e, size, r, signed, notPlus, size_r, imaginary, rfl⟩ := exists_unitSize h im
  have positive : size.head? ≠ some '-' := fun minus => (size_r.signless _ (List.mem_of_head? minus)).2 rfl
  rw [textWith]
  split
  next none =>
    rw [show e * r = 0 from none]
    exact parse_of_rational real.subset_marks real.ne_nil real.parse
  split
  next none =>
    obtain rfl : re = 0 := none
    rw [imaginary]
    exact parse_part signed size_r
  next =>
    -- The sign of the imaginary part is written between the two parts, also where it is a plus.
    have joined : (if (imaginaryTextWith render (e * r)).head? = some '-' then
        render re ++ imaginaryTextWith render (e * r) else render re ++ '+' :: imaginaryTextWith render (e * r)) =
          render re ++ withSign (imaginaryTextWith render (e * r)) := by
      rw [withSign]
      split <;> rfl
    obtain ⟨shown, written, signed', given⟩ := withSign_append signed notPlus positive
    rw [joined, imaginary, written]
    exact parse_real_imaginary real.subset_marks real.ne_nil real.parse signed' given size_r

/-- The parts of a number read back as the number in this order as well. -/
theorem parse_swappedWith (z : Gaussian) : parse (z.swappedWith render) = .ok z := by
  obtain ⟨re, im⟩ := z
  obtain ⟨sign, e, size, r, signed, -, size_r, imaginary, rfl⟩ := exists_unitSize h im
  obtain ⟨sign', e', size', p, signed', notPlus, size_p, real, rfl⟩ := (h.shows re).exists_sign
  have positive : size'.head? ≠ some '-' := fun minus =>
    size_p.forall_mem (p := (· ≠ '-')) (by decide) _ (List.mem_of_head? minus) rfl
  obtain ⟨shown, written, signed'', given⟩ := withSign_append signed' notPlus positive
  rw [swappedWith, imaginary, real, written]
  exact parse_imaginary_real signed size_r signed'' given size_p

end

/-! ## Reading back -/

/-- The number that the text of a number stands for as an expression: after a fraction the unit belongs to the
denominator, so that an imaginary part shown as a fraction changes its sign. -/
def reread (fraction : Rat → Bool) (z : Gaussian) : Gaussian := if fraction z.im then z.conjugate else z

/-- A number is read back as itself just if its imaginary part is not shown as a fraction. -/
theorem reread_eq_self_iff {render : Rat → Text} {fraction : Rat → Bool} (h : Renders render fraction) (z : Gaussian) :
    z.reread fraction = z ↔ fraction z.im = false := by
  rw [reread]
  cases shown : fraction z.im with
  | false => simp
  | true =>
    refine ⟨fun same => ?_, nofun⟩
    have real : z.im = 0 := neg_eq_self.1 (congrArg im same)
    rw [real, h.integer 0 rfl] at shown
    exact shown.symm

end Gaussian

end Reckoner
