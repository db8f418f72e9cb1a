import Reckoner.Proofs.Rational.Reading
/-!
# The grammar of rational literals

What the reader of rational literals accepts, as a grammar with values that does not mention the reader. Main statement
(`parse_printable`): a text of printable ASCII characters is read just if it is a literal without its spaces, and its value
is the quotient of the decimal numbers that are written; a quotient by zero and every other text are refused, each in its
own family.
-/

namespace Reckoner.Rational

open Text

/-! ## The grammar -/

/-- The number that digits of the plain script denote. -/
def digitsValue (t : Text) : Rat := (Nat.ofDigitChars 10 t 0 : Nat)

/-- A decimal number without a sign: digits, perhaps with a point and further digits, or a point and digits. -/
inductive Unsigned : Text → Rat → Prop where
  | whole {s} : Digits s → Unsigned s (digitsValue s)
  | point {s} : Digits s → Unsigned (s ++ ['.']) (digitsValue s)
  | places {s t} : Digits s → Digits t → Unsigned (s ++ '.' :: t) (digitsValue s + digitsValue t / 10 ^ t.length)
  | fraction {t} : Digits t → Unsigned ('.' :: t) (digitsValue t / 10 ^ t.length)

section

variable (U : Text → Rat → Prop)

/-- A decimal number, with a sign in front of it or none; `U` tells the numbers without a sign. -/
inductive Signed : Text → Rat → Prop where
  | signed {sign t e q} : Sign sign e → U t q → Signed (sign ++ t) (e * q)

/-- A decimal number, or the quotient of two of which the second is not zero. -/
inductive Literal : Text → Rat → Prop where
  | decimal {t q} : Signed U t q → Literal t q
  | quotient {s t p q} : Signed U s p → Signed U t q → q ≠ 0 → Literal (s ++ '/' :: t) (p / q)

/-- A quotient of two decimal numbers of which the second is zero. -/
inductive ZeroQuotient : Text → Prop where
  | quotient {s t p} : Signed U s p → Signed U t 0 → ZeroQuotient (s ++ '/' :: t)

end

section

variable {U V : Text → Rat → Prop} {t : Text} {q : Rat}

theorem Signed.mono (h : Signed U t q) (sub : ∀ u r, u ⊆ t → U u r → V u r) : Signed V t q := by
  obtain @⟨sign, u, e, r, signed, unsigned⟩ := h
  exact .signed signed (sub u r (List.subset_append_right sign u) unsigned)

theorem Literal.mono (h : Literal U t q) (sub : ∀ u r, u ⊆ t → U u r → V u r) : Literal V t q := by
  cases h with
  | decimal number => exact .decimal (number.mono sub)
  | @quotient s t p q above below nonzero =>
    have inside : t ⊆ s ++ '/' :: t := List.subset_append_of_subset_right s (List.subset_cons_self '/' t)
    exact .quotient (above.mono fun u r part => sub u r (List.subset_append_of_subset_left _ part))
      (below.mono fun u r part => sub u r (List.Subset.trans part inside)) nonzero

theorem ZeroQuotient.mono (h : ZeroQuotient U t) (sub : ∀ u r, u ⊆ t → U u r → V u r) : ZeroQuotient V t := by
  obtain @⟨s, t, p, above, below⟩ := h
  have inside : t ⊆ s ++ '/' :: t := List.subset_append_of_subset_right s (List.subset_cons_self '/' t)
  exact .quotient (above.mono fun u r part => sub u r (List.subset_append_of_subset_left _ part))
    (below.mono fun u r part => sub u r (List.Subset.trans part inside))

end

/-! ## What is read -/

/-- What is read as a decimal number without a sign: digits of any script with a point before, among or after them, and
perhaps a line break. -/
inductive ReadsUnsigned : Text → Rat → Prop where
  | whole {s ending} : s ≠ [] → (∀ c ∈ s, CharClass.isDigit c = true) → atEnd ending = true →
    ReadsUnsigned (s ++ ending) (decimalValue s [])
  | places {s t ending} : s ≠ [] ∨ t ≠ [] → (∀ c ∈ s, CharClass.isDigit c = true) →
    (∀ c ∈ t, CharClass.isDigit c = true) → atEnd ending = true →
    ReadsUnsigned (s ++ '.' :: (t ++ ending)) (decimalValue s t)

theorem atEnd_iff {t : Text} : atEnd t = true ↔ t = [] ∨ t = ['\n'] := by simp [atEnd]

theorem spanDigits_atEnd {s ending : Text} (digits : ∀ c ∈ s, CharClass.isDigit c = true) (ends : atEnd ending = true) :
    spanDigits (s ++ ending) = (s, ending) := by
  refine Lists.span_append digits fun c mem => ?_
  rcases atEnd_iff.1 ends with rfl | rfl
  · cases mem
  · cases mem
    decide

theorem readUnsigned?_eq_some {t : Text} {q : Rat} : readUnsigned? t = some q ↔ ReadsUnsigned t q := by
  constructor
  · intro h
    obtain ⟨s, rest, cut, rfl, digits⟩ := spanDigits_cut t
    simp only [readUnsigned?, cut] at h
    split at h
    next tail =>
      obtain ⟨t, ending, cut', rfl, digits'⟩ := spanDigits_cut tail
      simp only [cut'] at h
      split at h
      · cases h
      next accepted =>
        cases h
        simp only [Bool.or_eq_true, Bool.and_eq_true, List.isEmpty_iff, Bool.not_eq_true', not_or, Bool.not_eq_false]
          at accepted
        exact .places (by tauto) digits digits' accepted.2
    next =>
      split at h
      · cases h
      next accepted =>
        cases h
        simp only [Bool.or_eq_true, List.isEmpty_iff, Bool.not_eq_true', not_or, Bool.not_eq_false] at accepted
        exact .whole accepted.1 digits accepted.2
  · rintro (@⟨s, ending, nonempty, digits, ends⟩ | @⟨s, t, ending, nonempty, digits, digits', ends⟩)
    · simp only [readUnsigned?, spanDigits_atEnd digits ends]
      rcases atEnd_iff.1 ends with rfl | rfl <;> simp [nonempty, ends]
    · have cut : spanDigits (s ++ '.' :: (t ++ ending)) = (s, '.' :: (t ++ ending)) :=
        Lists.span_append digits (by rintro _ ⟨⟩; decide)
      simp only [readUnsigned?, cut, spanDigits_atEnd digits' ends]
      exact if_neg (by simpa [ends] using or_iff_not_imp_left.1 nonempty)

namespace ReadsUnsigned

variable {t : Text} {q : Rat}

/-- A character of a decimal number is a digit, the point or the line break. -/
theorem characters (h : ReadsUnsigned t q) : ∀ c ∈ t, CharClass.isDigit c = true ∨ c = '.' ∨ c = '\n' := by
  have ending : ∀ {u : Text}, atEnd u = true → ∀ c ∈ u, CharClass.isDigit c = true ∨ c = '.' ∨ c = '\n' := by
    intro u ends c mem
    rcases atEnd_iff.1 ends with rfl | rfl
    · cases mem
    · exact .inr (.inr (List.mem_singleton.1 mem))
  have digit : ∀ {u : Text}, (∀ c ∈ u, CharClass.isDigit c = true) →
      ∀ c ∈ u, CharClass.isDigit c = true ∨ c = '.' ∨ c = '\n' := fun digits c mem => .inl (digits c mem)
  cases h with
  | whole _ digits ends => exact List.forall_mem_append.2 ⟨digit digits, ending ends⟩
  | places _ digits digits' ends =>
    exact List.forall_mem_append.2 ⟨digit digits, List.forall_mem_cons.2 ⟨.inr (.inl rfl),
      List.forall_mem_append.2 ⟨digit digits', ending ends⟩⟩⟩

theorem ne_nil (h : ReadsUnsigned t q) : t ≠ [] := by
  cases h with
  | whole nonempty => simp [nonempty]
  | places => simp

/-- What holds of the point, the line break and every digit holds of every character. -/
theorem notMem (h : ReadsUnsigned t q) {c : Char} (other : CharClass.isDigit c = false ∧ c ≠ '.' ∧ c ≠ '\n') : c ∉ t := by
  intro mem
  rcases h.characters c mem with digit | point | lineBreak
  · rw [other.1] at digit
    cases digit
  · exact other.2.1 point
  · exact other.2.2 lineBreak

theorem readSign (h : ReadsUnsigned t q) : readSign t = (false, t) := by
  have minus : '-' ∉ t := h.notMem (by decide)
  have plus : '+' ∉ t := h.notMem (by decide)
  unfold Text.readSign
  split
  · simp at minus
  · simp at plus
  · rfl

end ReadsUnsigned

theorem readSign_spec (t : Text) :
    ∃ sign, Sign sign (if (readSign t).1 then -1 else 1) ∧ t = sign ++ (readSign t).2 := by
  unfold readSign
  split
  · exact ⟨['-'], .minus, rfl⟩
  · exact ⟨['+'], .plus, rfl⟩
  · exact ⟨[], .none, rfl⟩

theorem readDecimal?_eq_some {t : Text} {q : Rat} : readDecimal? t = some q ↔ Signed ReadsUnsigned t q := by
  constructor
  · intro h
    have parts : readDecimal? t = (readUnsigned? (readSign t).2).map fun q => if (readSign t).1 then -q else q := rfl
    obtain ⟨sign, signed, split⟩ := readSign_spec t
    obtain ⟨r, unsigned, rfl⟩ := Option.map_eq_some_iff.1 (parts.symm.trans h)
    have number := Signed.signed signed (readUnsigned?_eq_some.1 unsigned)
    rwa [← split, ite_mul, neg_one_mul, one_mul] at number
  · rintro @⟨sign, u, e, r, signed, unsigned⟩
    have number := readUnsigned?_eq_some.2 unsigned
    cases signed with
    | none => simp [readDecimal?, unsigned.readSign, number]
    | plus => simp [readDecimal?, Text.readSign, number]
    | minus => simp [readDecimal?, Text.readSign, number]

theorem readDecimal_eq_ok {t : Text} {q : Rat} : readDecimal t = .ok q ↔ Signed ReadsUnsigned t q := by
  rw [← readDecimal?_eq_some, readDecimal]
  cases readDecimal? t with
  | none => simp [refuse]
  | some r => simp

namespace Signed

variable {t : Text} {q : Rat}

theorem ne_nil (h : Signed ReadsUnsigned t q) : t ≠ [] := by
  obtain @⟨sign, u, e, r, -, unsigned⟩ := h
  simp [unsigned.ne_nil]

/-- A character of a decimal number is a sign or a character of the number without it. -/
theorem notMem (h : Signed ReadsUnsigned t q) {c : Char}
    (other : CharClass.isDigit c = false ∧ c ≠ '.' ∧ c ≠ '\n' ∧ c ≠ '+' ∧ c ≠ '-') : c ∉ t := by
  obtain @⟨sign, u, e, r, signed, unsigned⟩ := h
  obtain ⟨digit, point, lineBreak, plus, minus⟩ := other
  refine List.not_mem_append (fun mem => ?_) (unsigned.notMem ⟨digit, point, lineBreak⟩)
  cases signed <;> simp_all

end Signed

/-! ## Literals -/

section

variable {t s u : Text} {p q : Rat}

theorem parse_decimal (h : Signed ReadsUnsigned (withoutSpaces t) q) : parse t = .ok q := by
  rw [parse]
  generalize withoutSpaces t = cleaned at h
  have undivided : cut? ['/'] cleaned = none := cut?_eq_none (List.forall_mem_ne'.2 (h.notMem (by decide)))
  simp [undivided, h.ne_nil, readDecimal_eq_ok.2 h]

theorem parse_quotient (split : withoutSpaces t = s ++ '/' :: u) (above : Signed ReadsUnsigned s p)
    (below : Signed ReadsUnsigned u q) :
    parse t = if q = 0 then refuse .zeroDenominator else .ok (p / q) := by
  have cut : cut? ['/'] (s ++ '/' :: u) = some (s, u) := cut?_append (List.forall_mem_ne'.2 (above.notMem (by decide))) u
  have single : '/' ∉ u := below.notMem (by decide)
  simp only [parse, split, cut]
  rw [if_neg (by simp), if_neg (by simp [single, above.ne_nil, below.ne_nil]), readDecimal_eq_ok.2 above,
    readDecimal_eq_ok.2 below]
  rfl

theorem Literal.parse (h : Literal ReadsUnsigned (withoutSpaces t) q) : parse t = .ok q := by
  generalize cleaned : withoutSpaces t = c at h
  cases h with
  | decimal number => exact parse_decimal (cleaned ▸ number)
  | quotient above below nonzero => rw [parse_quotient cleaned above below, if_neg nonzero]

theorem ZeroQuotient.parse (h : ZeroQuotient ReadsUnsigned (withoutSpaces t)) : parse t = refuse .zeroDenominator := by
  generalize cleaned : withoutSpaces t = c at h
  obtain @⟨s, u, p, above, below⟩ := h
  rw [parse_quotient cleaned above below, if_pos rfl]

theorem readDecimal_cases (t : Text) :
    (∃ q, readDecimal t = .ok q ∧ Signed ReadsUnsigned t q) ∨ readDecimal t = refuse (.badRational t) := by
  cases number : readDecimal? t with
  | some q => exact .inl ⟨q, by simp [readDecimal, number], readDecimal?_eq_some.1 number⟩
  | none => exact .inr (by simp [readDecimal, number])

/-- A text is a literal, or a quotient by zero, or refused for its form. -/
theorem parse_cases (t : Text) :
    (∃ q, parse t = .ok q ∧ Literal ReadsUnsigned (withoutSpaces t) q) ∨
      (parse t = refuse .zeroDenominator ∧ ZeroQuotient ReadsUnsigned (withoutSpaces t)) ∨
      ∃ f, parse t = refuse f ∧ f.family = .badFormat := by
  generalize cleaned : withoutSpaces t = c
  by_cases divided : '/' ∈ c
  · obtain ⟨s, u, rfl, first⟩ := List.eq_append_cons_of_mem divided
    have cut : cut? ['/'] (s ++ '/' :: u) = some (s, u) := cut?_append (List.forall_mem_ne'.2 first) u
    have whole : parse t = if u.contains '/' || s.isEmpty || u.isEmpty then refuse (.badRational t) else do
        let numerator ← readDecimal s
        let denominator ← readDecimal u
        if denominator = 0 then refuse .zeroDenominator else return numerator / denominator := by
      simp [Rational.parse, cleaned, cut]
    split at whole
    · exact .inr (.inr ⟨_, whole, rfl⟩)
    rcases readDecimal_cases s with ⟨p, read, above⟩ | refused
    · rcases readDecimal_cases u with ⟨q, -, below⟩ | refused'
      · have value := parse_quotient cleaned above below
        by_cases zero : q = 0
        · subst zero
          exact .inr (.inl ⟨value, .quotient above below⟩)
        · exact .inl ⟨p / q, by rw [value, if_neg zero], .quotient above below zero⟩
      · refine .inr (.inr ⟨.badRational u, ?_, rfl⟩)
        rw [whole, read, refused']
        rfl
    · refine .inr (.inr ⟨.badRational s, ?_, rfl⟩)
      rw [whole, refused]
      rfl
  · have undivided : cut? ['/'] c = none := cut?_eq_none (List.forall_mem_ne'.2 divided)
    by_cases empty : c = []
    · exact .inr (.inr ⟨.emptyRational, by simp [Rational.parse, cleaned, empty], rfl⟩)
    have whole : parse t = readDecimal c := by simp [Rational.parse, cleaned, undivided, empty]
    rcases readDecimal_cases c with ⟨q, read, number⟩ | refused
    · exact .inl ⟨q, whole.trans read, .decimal number⟩
    · exact .inr (.inr ⟨_, whole.trans refused, rfl⟩)

theorem literal_of_parse (h : Rational.parse t = .ok q) : Literal ReadsUnsigned (withoutSpaces t) q := by
  rcases parse_cases t with ⟨r, value, literal⟩ | ⟨refused, -⟩ | ⟨f, refused, -⟩
  · cases h.symm.trans value
    exact literal
  · exact absurd (refused.symm.trans h) Outcome.refuse_ne_ok
  · exact absurd (refused.symm.trans h) Outcome.refuse_ne_ok

/-- A character of a literal is a space, a digit of some script, a point, a sign, the fraction bar or the line break. -/
theorem notMem_of_parse (h : Rational.parse t = .ok q) {c : Char}
    (other : CharClass.isDigit c = false ∧ c ∉ [' ', '.', '\n', '+', '-', '/']) : c ∉ t := by
  obtain ⟨digit, other⟩ := other
  simp only [List.mem_cons, List.not_mem_nil, or_false, not_or] at other
  obtain ⟨space, point, lineBreak, plus, minus, bar⟩ := other
  have number : ∀ {s r}, Signed ReadsUnsigned s r → c ∉ s := fun h => h.notMem ⟨digit, point, lineBreak, plus, minus⟩
  intro mem
  have kept : c ∈ withoutSpaces t := List.mem_filter.2 ⟨mem, by simp [space]⟩
  have literal := literal_of_parse h
  generalize withoutSpaces t = cleaned at kept literal
  cases literal with
  | decimal single => exact number single kept
  | quotient above below => exact List.not_mem_append (number above) (List.not_mem_cons_of_ne_of_not_mem bar (number below)) kept

theorem ne_nil_of_parse (h : Rational.parse t = .ok q) : t ≠ [] := by
  rintro rfl
  cases h

end

/-! ## Plain characters -/

/-- A printable character of ASCII. -/
def IsPlain (c : Char) : Prop := ' ' ≤ c ∧ c ≤ '~'

instance : DecidablePred IsPlain := fun c => inferInstanceAs (Decidable (' ' ≤ c ∧ c ≤ '~'))

theorem isDigit_of_isPlain {c : Char} (plain : IsPlain c) (h : CharClass.isDigit c = true) : c.isDigit = true := by
  have low : c.toNat ≤ 126 := plain.2
  have zerosAbove : ∀ z ∈ CharClass.zeros, 126 < z := by decide
  by_contra other
  have outside : ¬('0' ≤ c ∧ c ≤ '9') := fun inside => other (by
    simp only [Char.isDigit, Bool.and_eq_true, decide_eq_true_eq]
    exact inside)
  rw [CharClass.isDigit, CharClass.digitValue?, if_neg outside, Option.isSome_map, Option.isSome_iff_exists] at h
  obtain ⟨z, found⟩ := h
  have above := zerosAbove z (List.mem_of_find?_eq_some found)
  have range := List.find?_some found
  simp only [Bool.and_eq_true, decide_eq_true_eq] at range
  omega

theorem decimalValue_digits {s t : Text} (hs : ∀ c ∈ s, c.isDigit = true) (ht : ∀ c ∈ t, c.isDigit = true) :
    decimalValue s t = digitsValue s + digitsValue t / 10 ^ t.length := by
  rw [decimalValue_eq, numeralValue_append hs ht, numeralValue_eq hs, numeralValue_eq ht, digitsValue, digitsValue,
    Nat.cast_add, Nat.cast_mul, Nat.cast_pow, Nat.cast_ofNat, add_div, mul_div_cancel_left₀ _ (by positivity)]

theorem decimalValue_whole {s : Text} (h : ∀ c ∈ s, c.isDigit = true) : decimalValue s [] = digitsValue s := by
  rw [decimalValue_digits h (by simp)]
  simp [digitsValue]

/-- Digits of the plain script are read with the value that they denote. -/
theorem Unsigned.reads {t : Text} {q : Rat} (h : Unsigned t q) : ReadsUnsigned t q := by
  have script : ∀ {s : Text}, Digits s → ∀ c ∈ s, CharClass.isDigit c = true :=
    fun digits c mem => isDigit_of_isDigit (digits.2 c mem)
  have ends : atEnd [] = true := rfl
  cases h with
  | whole digits =>
    simpa [decimalValue_whole digits.2] using ReadsUnsigned.whole digits.1 (script digits) ends
  | point digits =>
    simpa [decimalValue_whole digits.2] using
      ReadsUnsigned.places (t := []) (.inl digits.1) (script digits) nofun ends
  | places digits digits' =>
    simpa [decimalValue_digits digits.2 digits'.2] using
      ReadsUnsigned.places (.inl digits.1) (script digits) (script digits') ends
  | fraction digits =>
    simpa [decimalValue_digits (s := []) (by simp) digits.2, digitsValue] using
      ReadsUnsigned.places (s := []) (.inr digits.1) nofun (script digits) ends

/-- Plain characters are read as plain digits only. -/
theorem ReadsUnsigned.unsigned {t : Text} {q : Rat} (h : ReadsUnsigned t q) (plain : ∀ c ∈ t, IsPlain c) :
    Unsigned t q := by
  have ended : ∀ {ending : Text}, atEnd ending = true → ending ⊆ t → ending = [] := by
    intro ending ends inside
    rcases atEnd_iff.1 ends with rfl | rfl
    · rfl
    · exact absurd (plain _ (inside (List.mem_singleton_self _))) (by decide)
  have script : ∀ {s : Text}, (∀ c ∈ s, CharClass.isDigit c = true) → s ⊆ t → ∀ c ∈ s, c.isDigit = true :=
    fun digits inside c mem => isDigit_of_isPlain (plain c (inside mem)) (digits c mem)
  cases h with
  | @whole s ending nonempty digits ends =>
    obtain rfl := ended ends (List.subset_append_right s ending)
    have digits := script digits (List.subset_append_left s [])
    rw [List.append_nil, decimalValue_whole digits]
    exact .whole ⟨nonempty, digits⟩
  | @places s u ending nonempty digits digits' ends =>
    obtain rfl := ended ends fun c mem => by simp [mem]
    have digits := script digits (List.subset_append_left s _)
    have digits' := script digits' fun c mem => by simp [mem]
    rw [List.append_nil, decimalValue_digits digits digits']
    by_cases whole : s = []
    · subst whole
      simpa [digitsValue] using Unsigned.fraction ⟨nonempty.resolve_left (· rfl), digits'⟩
    · by_cases places : u = []
      · subst places
        simpa [digitsValue] using Unsigned.point ⟨whole, digits⟩
      · exact .places ⟨whole, digits⟩ ⟨places, digits'⟩

/-- The literals are read with their values, quotients by zero are refused as such, and every other text is refused for
its form. -/
theorem parse_printable {t : Text} (plain : ∀ c ∈ t, IsPlain c) :
    (∀ q, parse t = .ok q ↔ Literal Unsigned (withoutSpaces t) q) ∧
      ((∃ f, parse t = refuse f ∧ f.family = .badArgument) ↔ ZeroQuotient Unsigned (withoutSpaces t)) ∧
      ((∃ f, parse t = refuse f ∧ f.family = .badFormat) ↔
        (∀ q, ¬Literal Unsigned (withoutSpaces t) q) ∧ ¬ZeroQuotient Unsigned (withoutSpaces t)) := by
  have unsigned : ∀ u r, u ⊆ withoutSpaces t → ReadsUnsigned u r → Unsigned u r := fun u r inside read =>
    read.unsigned fun c mem => plain c (List.mem_of_mem_filter (inside mem))
  have reads : ∀ u r, u ⊆ withoutSpaces t → Unsigned u r → ReadsUnsigned u r := fun _ _ _ => Unsigned.reads
  have literal : ∀ {q}, Literal Unsigned (withoutSpaces t) q → parse t = .ok q := fun h => (h.mono reads).parse
  have zero : ZeroQuotient Unsigned (withoutSpaces t) → parse t = refuse .zeroDenominator := fun h => (h.mono reads).parse
  rcases parse_cases t with ⟨q, value, number⟩ | ⟨refused, quotient⟩ | ⟨f, refused, family⟩
  · have number := number.mono unsigned
    rw [value] at literal zero ⊢
    refine ⟨fun r => ⟨?_, literal⟩, ⟨?_, fun h => nomatch zero h⟩, ⟨?_, fun h => absurd number (h.1 q)⟩⟩
    · rintro ⟨⟩
      exact number
    · rintro ⟨f, ⟨⟩, -⟩
    · rintro ⟨f, ⟨⟩, -⟩
  · have quotient := quotient.mono unsigned
    rw [refused] at literal ⊢
    refine ⟨fun r => ⟨nofun, literal⟩, ⟨fun _ => quotient, fun _ => ⟨_, rfl, rfl⟩⟩, ⟨?_, fun h => absurd quotient h.2⟩⟩
    rintro ⟨f, ⟨⟩, ⟨⟩⟩
  · rw [refused] at literal zero ⊢
    have noZero : ¬ZeroQuotient Unsigned (withoutSpaces t) := fun h => by
      cases zero h
      cases family
    refine ⟨fun r => ⟨nofun, literal⟩, ⟨?_, fun h => absurd h noZero⟩,
      ⟨fun _ => ⟨fun q h => (nomatch literal h), noZero⟩, fun _ => ⟨f, rfl, family⟩⟩⟩
    rintro ⟨f, ⟨⟩, other⟩
    cases family.symm.trans other

/-- Spaces may stand anywhere, and the digits before a point may be missing. -/
theorem parse_printable_quotient :
    (∀ c ∈ " - 12.5 / +.2 5".toList, IsPlain c) ∧ parse " - 12.5 / +.2 5".toList = .ok (-50) := by
  have plain : ∀ c ∈ " - 12.5 / +.2 5".toList, IsPlain c := forall_of_all (by decide)
  have whole : Digits ['1', '2'] := ⟨by decide, forall_of_all (by decide)⟩
  have half : Digits ['5'] := ⟨by decide, forall_of_all (by decide)⟩
  have quarter : Digits ['2', '5'] := ⟨by decide, forall_of_all (by decide)⟩
  have above : Signed Unsigned "-12.5".toList (-1 * (digitsValue ['1', '2'] + digitsValue ['5'] / 10 ^ 1)) :=
    .signed .minus (.places whole half)
  have below : Signed Unsigned "+.25".toList (1 * (digitsValue ['2', '5'] / 10 ^ 2)) :=
    .signed .plus (.fraction quarter)
  have twelve : digitsValue ['1', '2'] = 12 := rfl
  have five : digitsValue ['5'] = 5 := rfl
  have twentyFive : digitsValue ['2', '5'] = 25 := rfl
  rw [twelve, five] at above
  rw [twentyFive] at below
  have value : (-50 : Rat) = -1 * (12 + 5 / 10 ^ 1) / (1 * (25 / 10 ^ 2)) := by norm_num
  exact ⟨plain, ((parse_printable plain).1 (-50)).2 (value ▸ .quotient above below (by norm_num))⟩

end Reckoner.Rational
