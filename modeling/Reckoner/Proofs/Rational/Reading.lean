import Mathlib.Algebra.Order.Field.Rat
import Mathlib.Data.List.Basic
import Mathlib.Data.List.TakeWhile
import Mathlib.Tactic.IntervalCases
import Mathlib.Tactic.NormNum
import Mathlib.Tactic.Ring
import Reckoner.Rational.Literal
import Reckoner.Rational.Rendering
import Reckoner.Proofs.Lists
import Reckoner.Proofs.Rational.Rounding
/-!
# Rational numbers as they are shown

Every text of a rational number is a decimal number or a fraction of two, with a minus sign in front where the number
is negative. Main statement: such a text reads back as the number. The exact text shows the number itself; the decimal
text shows the rounded number, which is the number itself if it has few enough decimals.
-/

namespace Reckoner

/-! ## Digits -/

namespace Text

open CharClass

/-- What is decided of each of some characters holds of each. -/
theorem forall_of_all {p : Char → Prop} [DecidablePred p] {t : Text} (h : t.all (p ·) = true) : ∀ c ∈ t, p c :=
  fun c hc => of_decide_eq_true (List.all_eq_true.1 h c hc)

/-- At least one digit of the plain script, and nothing else. -/
def Digits (t : Text) : Prop := t ≠ [] ∧ ∀ c ∈ t, c.isDigit = true

theorem digitValue?_of_isDigit {c : Char} (h : c.isDigit = true) : digitValue? c = some (c.toNat - '0'.toNat) := by
  simp only [Char.isDigit, Bool.and_eq_true, decide_eq_true_eq] at h
  exact if_pos h

theorem isDigit_of_isDigit {c : Char} (h : c.isDigit = true) : CharClass.isDigit c = true := by
  rw [CharClass.isDigit, digitValue?_of_isDigit h]
  rfl

theorem mem_digits {c : Char} (h : c.isDigit = true) : c ∈ ['0', '1', '2', '3', '4', '5', '6', '7', '8', '9'] := by
  simp only [Char.isDigit, Bool.and_eq_true, decide_eq_true_eq] at h
  have low : 48 ≤ c.toNat := h.1
  have high : c.toNat ≤ 57 := h.2
  rw [← Char.ofNat_toNat c]
  generalize c.toNat = n at low high
  interval_cases n <;> decide

theorem numeralValue_eq {t : Text} (h : ∀ c ∈ t, c.isDigit = true) : numeralValue t = Nat.ofDigitChars 10 t 0 := by
  rw [numeralValue, Nat.ofDigitChars_eq_foldl]
  refine List.foldl_ext _ _ _ fun n c hc => ?_
  rw [digitValue?_of_isDigit (h c hc), Option.getD_some]

theorem digits_numeral (n : Nat) : Digits (numeral n) :=
  ⟨Nat.toDigits_ne_nil, fun _ => Nat.isDigit_of_mem_toDigits (by decide) (by decide)⟩

theorem numeralValue_numeral (n : Nat) : numeralValue (numeral n) = n := by
  rw [numeralValue_eq (digits_numeral n).2, numeral, Nat.ofDigitChars_ten_toDigits]

theorem numeralValue_append {s t : Text} (hs : ∀ c ∈ s, c.isDigit = true) (ht : ∀ c ∈ t, c.isDigit = true) :
    numeralValue (s ++ t) = 10 ^ t.length * numeralValue s + numeralValue t := by
  rw [numeralValue_eq (List.forall_mem_append.2 ⟨hs, ht⟩), numeralValue_eq hs, numeralValue_eq ht,
    Nat.ofDigitChars_append, Nat.ofDigitChars_eq_ofDigitChars_zero]

theorem spanDigits_append {t rest : Text} (h : ∀ c ∈ t, c.isDigit = true)
    (stop : ∀ c ∈ rest.head?, CharClass.isDigit c = false) : spanDigits (t ++ rest) = (t, rest) :=
  Lists.span_append (fun c hc => isDigit_of_isDigit (h c hc)) stop

theorem spanDigits_digits {t : Text} (h : Digits t) : spanDigits t = (t, []) := by
  have cut : spanDigits (t ++ []) = (t, []) := spanDigits_append h.2 nofun
  rwa [List.append_nil] at cut

theorem cut?_eq_none {c : Char} {t : Text} (h : ∀ d ∈ t, d ≠ c) : cut? [c] t = none := by
  induction t with
  | nil => rfl
  | cons d t ih =>
    obtain ⟨first, later⟩ := List.forall_mem_cons.1 h
    simp [cut?, first.symm, ih later]

theorem cut?_append {c : Char} {s : Text} (h : ∀ d ∈ s, d ≠ c) (t : Text) : cut? [c] (s ++ c :: t) = some (s, t) := by
  induction s with
  | nil => simp [cut?]
  | cons d s ih =>
    obtain ⟨first, later⟩ := List.forall_mem_cons.1 h
    simp [cut?, first.symm, ih later]

theorem chop?_eq_some {c : Char} {s t : Text} : chop? c t = some s ↔ t = s ++ [c] := by
  constructor
  · intro h
    unfold chop? at h
    split at h
    next last =>
      obtain ⟨front, rfl⟩ := List.getLast?_eq_some_iff.1 last
      simpa using h
    · cases h
  · rintro rfl
    simp [chop?]

/-- A star at the end is no part of what stands before it. -/
theorem chop?_star (t : Text) : ∃ star, t = (chop? '*' t).getD t ++ star ∧ (star = [] ∨ star = ['*']) := by
  cases chopped : chop? '*' t with
  | some s => exact ⟨['*'], chop?_eq_some.1 chopped, .inr rfl⟩
  | none => exact ⟨[], by simp, .inl rfl⟩

end Text

namespace Rational

open Text

/-! ## Signs -/

/-- What may stand in front of a number, and what it multiplies the number by. -/
inductive Sign : Text → Rat → Prop where
  | none : Sign [] 1
  | plus : Sign ['+'] 1
  | minus : Sign ['-'] (-1)

theorem Sign.forall_mem {sign : Text} {e : Rat} (h : Sign sign e) {p : Char → Prop} [DecidablePred p]
    (all : ['+', '-'].all (p ·) = true) : ∀ c ∈ sign, p c := by
  have signs := forall_of_all all
  cases h <;> simp_all

/-! ## Decimal numbers -/

/-- A decimal number without a sign: digits, and a point with further digits where there are decimals. -/
inductive IsDecimal : Text → Rat → Prop where
  | whole {t} : Digits t → IsDecimal t (decimalValue t [])
  | places {s t} : Digits s → Digits t → IsDecimal (s ++ '.' :: t) (decimalValue s t)

namespace IsDecimal

variable {t : Text} {q : Rat}

theorem ne_nil (h : IsDecimal t q) : t ≠ [] := by
  cases h with
  | whole digits => exact digits.1
  | places => simp

/-- What holds of the digits and the point holds of every character. -/
theorem forall_mem (h : IsDecimal t q) {p : Char → Prop} [DecidablePred p]
    (all : ['.', '0', '1', '2', '3', '4', '5', '6', '7', '8', '9'].all (p ·) = true) : ∀ c ∈ t, p c := by
  obtain ⟨point, each⟩ := List.forall_mem_cons.1 (forall_of_all all)
  have digits : ∀ {s}, Digits s → ∀ c ∈ s, p c := fun digits c hc => each c (mem_digits (digits.2 c hc))
  cases h with
  | whole whole => exact digits whole
  | places whole places => exact List.forall_mem_append.2 ⟨digits whole, List.forall_mem_cons.2 ⟨point, digits places⟩⟩

theorem head_isDigit (h : IsDecimal t q) : ∃ c rest, t = c :: rest ∧ c.isDigit = true := by
  have begins : ∀ {s : Text} (rest : Text), Digits s → ∃ c tail, s ++ rest = c :: tail ∧ c.isDigit = true := by
    rintro (_ | ⟨c, s⟩) rest digits
    · exact absurd rfl digits.1
    · exact ⟨c, s ++ rest, rfl, digits.2 c List.mem_cons_self⟩
  cases h with
  | whole digits => simpa using begins [] digits
  | places first _ => exact begins _ first

theorem readUnsigned? (h : IsDecimal t q) : readUnsigned? t = some q := by
  cases h with
  | whole digits =>
    simp [Rational.readUnsigned?, spanDigits_digits digits, digits.1, atEnd]
  | @places s t first second =>
    have cut : spanDigits (s ++ '.' :: t) = (s, '.' :: t) := spanDigits_append first.2 (by rintro _ ⟨⟩; decide)
    simp [Rational.readUnsigned?, cut, spanDigits_digits second, first.1, atEnd]

theorem readDecimal {sign : Text} {e : Rat} (signed : Sign sign e) (h : IsDecimal t q) :
    readDecimal (sign ++ t) = .ok (e * q) := by
  have unsigned : readSign t = (false, t) := by
    obtain ⟨c, rest, rfl, digit⟩ := h.head_isDigit
    unfold readSign
    split
    next eq => cases eq; cases digit
    next eq => cases eq; cases digit
    next => rfl
  cases signed with
  | none => simp [Rational.readDecimal, readDecimal?, unsigned, h.readUnsigned?]
  | plus => simp [Rational.readDecimal, readDecimal?, readSign, h.readUnsigned?]
  | minus => simp [Rational.readDecimal, readDecimal?, readSign, h.readUnsigned?]

end IsDecimal

theorem isDecimal_numeral (n : Nat) : IsDecimal (numeral n) n := by
  have value : decimalValue (numeral n) [] = n := by
    rw [decimalValue, List.append_nil, numeralValue_numeral]
    exact Rat.mkRat_one _
  exact value ▸ .whole (digits_numeral n)

/-! ## Shown numbers -/

/-- The text of a number that is not negative: a decimal number, or the fraction of two. -/
inductive Size : Bool → Text → Rat → Prop where
  | decimal {t q} : IsDecimal t q → Size false t q
  | fraction {s t p q} : IsDecimal s p → IsDecimal t q → q ≠ 0 → Size true (s ++ '/' :: t) (p / q)

theorem Size.head_isDigit {fraction : Bool} {t : Text} {q : Rat} (h : Size fraction t q) :
    ∃ c rest, t = c :: rest ∧ c.isDigit = true := by
  cases h with
  | decimal digits => exact digits.head_isDigit
  | fraction above _ _ =>
    obtain ⟨c, rest, rfl, digit⟩ := above.head_isDigit
    exact ⟨c, rest ++ _, rfl, digit⟩

/-- The size of a number reads back as it, with the sign in front of it. -/
theorem Size.parse {fraction : Bool} {sign t : Text} {e q : Rat} (signed : Sign sign e) (h : Size fraction t q) :
    parse (sign ++ t) = .ok (e * q) := by
  cases h with
  | decimal digits =>
    have cleaned : withoutSpaces (sign ++ t) = sign ++ t := List.filter_eq_self.2
      (List.forall_mem_append.2 ⟨signed.forall_mem (by decide), digits.forall_mem (by decide)⟩)
    have whole : cut? ['/'] (sign ++ t) = none := cut?_eq_none
      (List.forall_mem_append.2 ⟨signed.forall_mem (by decide), digits.forall_mem (by decide)⟩)
    simp [Rational.parse, cleaned, whole, digits.ne_nil, digits.readDecimal signed]
  | @fraction s u p r above below nonzero =>
    have joined : sign ++ (s ++ '/' :: u) = (sign ++ s) ++ '/' :: u := (List.append_assoc _ _ _).symm
    have cleaned : withoutSpaces ((sign ++ s) ++ '/' :: u) = (sign ++ s) ++ '/' :: u :=
      List.filter_eq_self.2 (List.forall_mem_append.2
        ⟨List.forall_mem_append.2 ⟨signed.forall_mem (by decide), above.forall_mem (by decide)⟩,
          List.forall_mem_cons.2 ⟨by decide, below.forall_mem (by decide)⟩⟩)
    have cut : cut? ['/'] ((sign ++ s) ++ '/' :: u) = some (sign ++ s, u) := cut?_append
      (List.forall_mem_append.2 ⟨signed.forall_mem (by decide), above.forall_mem (by decide)⟩) u
    have single : '/' ∉ u := List.forall_mem_ne'.1 (below.forall_mem (by decide))
    have denominator := below.readDecimal .none
    rw [List.nil_append, one_mul] at denominator
    rw [joined]
    simp only [Rational.parse, cleaned, cut]
    rw [if_neg (by simp), if_neg (by simp [single, above.ne_nil, below.ne_nil]), above.readDecimal signed, denominator]
    show (if r = 0 then refuse .zeroDenominator else .ok (e * p / r)) = _
    rw [if_neg nonzero, mul_div_assoc]

/-- A decimal number reads back as itself. -/
theorem IsDecimal.parse {t : Text} {q : Rat} (h : IsDecimal t q) : parse t = .ok q := by
  simpa using (Size.decimal h).parse .none

/-- The text of a number, with a minus sign in front where the number is negative; `fraction` tells whether it is one.
-/
def Shows (fraction : Bool) (t : Text) (q : Rat) : Prop :=
  ∃ size r, Size fraction size r ∧ (t = size ∧ q = r ∨ t = '-' :: size ∧ q = -r)

theorem Shows.ne_nil {fraction : Bool} {t : Text} {q : Rat} (h : Shows fraction t q) : t ≠ [] := by
  obtain ⟨size, r, size_r, ⟨rfl, -⟩ | ⟨rfl, -⟩⟩ := h
  · obtain ⟨c, rest, rfl, -⟩ := size_r.head_isDigit
    exact List.cons_ne_nil c rest
  · exact List.cons_ne_nil _ size

/-- A shown number is a size, perhaps with a minus sign in front. -/
theorem Shows.exists_sign {fraction : Bool} {t : Text} {q : Rat} (h : Shows fraction t q) :
    ∃ sign e size r, Sign sign e ∧ sign ≠ ['+'] ∧ Size fraction size r ∧ t = sign ++ size ∧ q = e * r := by
  obtain ⟨size, r, size_r, ⟨rfl, rfl⟩ | ⟨rfl, rfl⟩⟩ := h
  · exact ⟨[], 1, t, q, .none, by simp, size_r, rfl, (one_mul q).symm⟩
  · exact ⟨['-'], -1, size, r, .minus, by simp, size_r, rfl, (neg_one_mul r).symm⟩

/-- The text of a number reads back as the number. -/
theorem Shows.parse {fraction : Bool} {t : Text} {q : Rat} (h : Shows fraction t q) : parse t = .ok q := by
  obtain ⟨sign, e, size, r, signed, -, size_r, rfl, rfl⟩ := h.exists_sign
  exact size_r.parse signed

theorem eq_natAbs_div (q : Rat) :
    (0 ≤ q.num ∧ q = (q.num.natAbs : Rat) / (q.den : Rat)) ∨ (q.num < 0 ∧ q = -((q.num.natAbs : Rat) / (q.den : Rat))) := by
  rcases le_or_gt 0 q.num with positive | negative
  · refine .inl ⟨positive, ?_⟩
    rw [← Int.cast_natCast, Int.natAbs_of_nonneg positive, Rat.num_div_den]
  · refine .inr ⟨negative, ?_⟩
    rw [← Int.cast_natCast, Int.ofNat_natAbs_of_nonpos negative.le, Int.cast_neg, neg_div, neg_neg, Rat.num_div_den]

/-- The text of a number is that of its size, with a minus sign in front if the number is negative. -/
theorem text_eq_size (q : Rat) : ∃ t, Size (!isInteger q) t ((q.num.natAbs : Rat) / (q.den : Rat)) ∧
    text q = if q.num < 0 then '-' :: t else t := by
  by_cases whole : q.den = 1
  · refine ⟨numeral q.num.natAbs, ?_, ?_⟩
    · simpa [isInteger, whole] using Size.decimal (isDecimal_numeral q.num.natAbs)
    · rw [text, if_pos whole, signedNumeral]
  · refine ⟨numeral q.num.natAbs ++ '/' :: numeral q.den, ?_, ?_⟩
    · have fraction : (!isInteger q) = true := by simp [isInteger, whole]
      rw [fraction]
      exact .fraction (isDecimal_numeral q.num.natAbs) (isDecimal_numeral q.den) (Nat.cast_ne_zero.2 q.den_nz)
    · rw [text, if_neg whole, signedNumeral]
      split <;> rfl

/-- Every number is shown exactly, as a fraction unless it is an integer. -/
theorem shows_text (q : Rat) : Shows (!isInteger q) (text q) q := by
  obtain ⟨t, size, shown⟩ := text_eq_size q
  rcases eq_natAbs_div q with ⟨positive, value⟩ | ⟨negative, value⟩
  · exact ⟨t, _, size, .inl ⟨by rw [shown, if_neg positive.not_gt], value⟩⟩
  · exact ⟨t, _, size, .inr ⟨by rw [shown, if_pos negative], value⟩⟩

/-- A number that is not negative is shown without a sign. -/
theorem size_text {q : Rat} (nonnegative : 0 ≤ q) : Size (!isInteger q) (text q) q := by
  obtain ⟨t, size, shown⟩ := text_eq_size q
  rcases eq_natAbs_div q with ⟨positive, value⟩ | ⟨negative, -⟩
  · rw [shown, if_neg positive.not_gt]
    rwa [← value] at size
  · exact absurd (Rat.num_nonneg.2 nonnegative) negative.not_ge

/-- The characters of shown numbers: signs, the fraction bar, the point and the digits. -/
def marks : Text := ['+', '-', '/', '.', '0', '1', '2', '3', '4', '5', '6', '7', '8', '9']

/-- What holds of the digits, the point and the fraction bar holds of every character. -/
theorem Size.forall_mem {fraction : Bool} {t : Text} {q : Rat} (h : Size fraction t q) {p : Char → Prop} [DecidablePred p]
    (all : ['/', '.', '0', '1', '2', '3', '4', '5', '6', '7', '8', '9'].all (p ·) = true) : ∀ c ∈ t, p c := by
  rw [List.all_cons, Bool.and_eq_true, decide_eq_true_eq] at all
  cases h with
  | decimal digits => exact digits.forall_mem all.2
  | fraction above below _ =>
    exact List.forall_mem_append.2 ⟨above.forall_mem all.2, List.forall_mem_cons.2 ⟨all.1, below.forall_mem all.2⟩⟩

theorem Size.subset_marks {fraction : Bool} {t : Text} {q : Rat} (h : Size fraction t q) : t ⊆ marks :=
  h.forall_mem (by decide)

theorem Shows.subset_marks {fraction : Bool} {t : Text} {q : Rat} (h : Shows fraction t q) : t ⊆ marks := by
  obtain ⟨size, r, size_r, ⟨rfl, -⟩ | ⟨rfl, -⟩⟩ := h
  · exact size_r.subset_marks
  · exact List.cons_subset.2 ⟨by decide, size_r.subset_marks⟩

/-! ## Decimal texts -/

theorem decimalValue_eq (s t : Text) : decimalValue s t = (numeralValue (s ++ t) : Rat) / (10 : Rat) ^ t.length := by
  rw [decimalValue, Rat.mkRat_eq_div]
  simp

theorem digits_padZeros (width n : Nat) : Digits (padZeros width (numeral n)) := by
  refine ⟨by simp [padZeros, (digits_numeral n).1], List.forall_mem_append.2 ⟨fun c hc => ?_, (digits_numeral n).2⟩⟩
  rw [List.eq_of_mem_replicate hc]
  rfl

/-- Zeros in front do not count. -/
theorem numeralValue_padZeros (width n : Nat) : numeralValue (padZeros width (numeral n)) = n := by
  rw [numeralValue_eq (digits_padZeros width n).2, padZeros, Nat.ofDigitChars_append, Nat.ofDigitChars_replicate_zero,
    mul_zero, numeral, Nat.ofDigitChars_ten_toDigits]

theorem length_padZeros {places n : Nat} (positive : 0 < places) (small : n < 10 ^ places) :
    (padZeros places (numeral n)).length = places := by
  have short : (numeral n).length ≤ places := (Nat.length_toDigits_le_iff (by decide) positive).2 small
  rw [padZeros, List.length_append, List.length_replicate]
  omega

/-- What zeros at the end stand for is a power of ten. -/
theorem dropTrailingZeros_append (t : Text) : ∃ n, t = dropTrailingZeros t ++ List.replicate n '0' := by
  refine ⟨(t.reverse.takeWhile (· == '0')).length, ?_⟩
  have zeros : t.reverse.takeWhile (· == '0') = List.replicate (t.reverse.takeWhile (· == '0')).length '0' :=
    List.eq_replicate_of_mem fun c hc => by simpa using List.mem_takeWhile_imp hc
  rw [dropTrailingZeros, ← List.reverse_replicate, ← zeros, ← List.reverse_append, List.takeWhile_append_dropWhile,
    List.reverse_reverse]

theorem dropTrailingZeros_value {t : Text} (h : ∀ c ∈ t, c.isDigit = true) :
    (∀ c ∈ dropTrailingZeros t, c.isDigit = true) ∧
      (numeralValue (dropTrailingZeros t) : Rat) / 10 ^ (dropTrailingZeros t).length =
        (numeralValue t : Rat) / 10 ^ t.length := by
  obtain ⟨n, split⟩ := dropTrailingZeros_append t
  generalize dropTrailingZeros t = front at split
  subst split
  obtain ⟨digits, zeros⟩ := List.forall_mem_append.1 h
  refine ⟨digits, ?_⟩
  rw [numeralValue_append digits zeros, numeralValue_eq zeros, Nat.ofDigitChars_replicate_zero, List.length_append,
    List.length_replicate, pow_add, mul_zero, add_zero, Nat.cast_mul, Nat.cast_pow, mul_comm ((10 : Rat) ^ _)]
  exact (mul_div_mul_left _ _ (by positivity)).symm

/-- The decimals of a number of units are their remainder. -/
theorem value_decimals (places count : Nat) :
    let decimals := dropTrailingZeros (padZeros places (numeral (count % 10 ^ places)))
    (numeralValue decimals : Rat) / 10 ^ decimals.length = ((count % 10 ^ places : Nat) : Rat) / 10 ^ places := by
  intro decimals
  rw [(dropTrailingZeros_value (digits_padZeros _ _).2).2, numeralValue_padZeros]
  rcases Nat.eq_zero_or_pos places with rfl | positive
  · simp [Nat.mod_one]
  · rw [length_padZeros positive (Nat.mod_lt _ (by positivity))]

/-- Units of the last place, written with a point, are a decimal number. -/
theorem isDecimal_units (places count : Nat) :
    let decimals := dropTrailingZeros (padZeros places (numeral (count % 10 ^ places)))
    IsDecimal (if decimals.isEmpty then numeral (count / 10 ^ places) else numeral (count / 10 ^ places) ++ '.' :: decimals)
      ((count : Rat) / 10 ^ places) := by
  intro decimals
  have digits : ∀ c ∈ decimals, c.isDigit = true := (dropTrailingZeros_value (digits_padZeros _ _).2).1
  have whole := digits_numeral (count / 10 ^ places)
  have value : decimalValue (numeral (count / 10 ^ places)) decimals = (count : Rat) / 10 ^ places := by
    have parts : (count : Rat) = 10 ^ places * ((count / 10 ^ places : Nat) : Rat) + ((count % 10 ^ places : Nat) : Rat) :=
      mod_cast (Nat.div_add_mod count (10 ^ places)).symm
    rw [decimalValue_eq, numeralValue_append whole.2 digits, numeralValue_numeral, Nat.cast_add, add_div,
      value_decimals places count, Nat.cast_mul, Nat.cast_pow, Nat.cast_ofNat,
      mul_div_cancel_left₀ _ (by positivity), eq_div_iff (by positivity), add_mul, div_mul_cancel₀ _ (by positivity), parts]
    ring
  rw [← value]
  split
  next empty => rw [List.isEmpty_iff.1 empty]; exact .whole whole
  next some => exact .places whole ⟨by simpa using some, digits⟩

/-- The units of a number with few enough decimals are exact. -/
theorem units_eq {places : Nat} {q : Rat} (fits : fitsDecimal places q = true) :
    (units places q : Rat) / 10 ^ places = (q.num.natAbs : Rat) / (q.den : Rat) := by
  have den : 0 < q.den := q.den_pos
  -- The denominator divides the scale, so that nothing is left to round.
  obtain ⟨k, scale⟩ : q.den ∣ 10 ^ places := Nat.dvd_of_mod_eq_zero (beq_iff_eq.1 fits)
  have scaled : q.num.natAbs * Nat.pow 10 places = q.den * (q.num.natAbs * k) := by
    show q.num.natAbs * 10 ^ places = _
    rw [scale, Nat.mul_left_comm]
  have exactly : units places q = q.num.natAbs * k := by
    simp only [units, scaled, Nat.mul_mod_right, Nat.mul_div_cancel_left _ den, mul_zero, Nat.le_zero, den.ne', if_false,
      add_zero]
  have power : (10 : Rat) ^ places = q.den * k := mod_cast scale
  have nonzero : (k : Rat) ≠ 0 := by
    rintro zero
    rw [zero, mul_zero] at power
    exact pow_ne_zero places (by norm_num) power
  rw [exactly, power, Nat.cast_mul, mul_div_mul_right _ _ nonzero]

/-- Digits without a sign, and after a point, if there is one, digits that do not end with a zero. -/
inductive Unpadded : Text → Prop where
  | whole {t} : Digits t → Unpadded t
  | places {s t} : Digits s → Digits t → t.getLast? ≠ some '0' → Unpadded (s ++ '.' :: t)

theorem getLast?_dropTrailingZeros (t : Text) : (dropTrailingZeros t).getLast? ≠ some '0' := by
  intro last
  have first := List.head?_dropWhile_not (· == '0') t.reverse
  rw [dropTrailingZeros, List.getLast?_reverse] at last
  rw [last] at first
  exact absurd first (by decide)

theorem unpadded_units (places count : Nat) :
    let decimals := dropTrailingZeros (padZeros places (numeral (count % 10 ^ places)))
    Unpadded (if decimals.isEmpty then numeral (count / 10 ^ places) else numeral (count / 10 ^ places) ++ '.' :: decimals) := by
  intro decimals
  have digits : ∀ c ∈ decimals, c.isDigit = true := (dropTrailingZeros_value (digits_padZeros _ _).2).1
  have whole := digits_numeral (count / 10 ^ places)
  split
  next => exact .whole whole
  next some => exact .places whole ⟨by simpa using some, digits⟩ (getLast?_dropTrailingZeros _)

/-- The decimal text is the size of the rounded number without zeros at the end, and has a minus sign in front just if
that number is negative. -/
theorem roundedText_eq (places : Nat) (q : Rat) : ∃ size, IsDecimal size |roundedTo places q| ∧ Unpadded size ∧
    roundedText places q = if roundedTo places q < 0 then '-' :: size else size := by
  have scale : (0 : Rat) < 10 ^ places := by positivity
  have positive : (0 : Rat) ≤ units places q / 10 ^ places := by positivity
  have size : |roundedTo places q| = units places q / 10 ^ places := by
    rcases lt_or_ge q 0 with negative | nonnegative
    · rw [roundedTo_of_neg negative, abs_neg, abs_of_nonneg positive]
    · rw [roundedTo_of_nonneg nonnegative, abs_of_nonneg positive]
  have sign : roundedTo places q < 0 ↔ q < 0 ∧ units places q ≠ 0 := by
    rcases lt_or_ge q 0 with negative | nonnegative
    · rw [roundedTo_of_neg negative, neg_lt_zero, div_pos_iff_of_pos_right scale, Nat.cast_pos, Nat.pos_iff_ne_zero]
      simp [negative]
    · rw [roundedTo_of_nonneg nonnegative]
      simp [positive.not_gt, nonnegative.not_gt]
  refine ⟨_, size ▸ isDecimal_units places (units places q), unpadded_units places (units places q), ?_⟩
  rw [roundedText]
  simp only [sign]
  rfl

/-- The decimal text shows the rounded number. -/
theorem shows_roundedTo (places : Nat) (q : Rat) : Shows false (roundedText places q) (roundedTo places q) := by
  obtain ⟨size, digits, -, shown⟩ := roundedText_eq places q
  rw [shown]
  split
  next negative => exact ⟨size, _, .decimal digits, .inr ⟨rfl, by rw [abs_of_neg negative, neg_neg]⟩⟩
  next nonnegative => exact ⟨size, _, .decimal digits, .inl ⟨rfl, (abs_of_nonneg (not_lt.1 nonnegative)).symm⟩⟩

/-- A number with few enough decimals is left alone by rounding. -/
theorem roundedTo_of_fitsDecimal {places : Nat} {q : Rat} (fits : fitsDecimal places q = true) : roundedTo places q = q := by
  have exactly := units_eq fits
  rw [natAbs_div_den] at exactly
  rcases lt_or_ge q 0 with negative | nonnegative
  · rw [roundedTo_of_neg negative, exactly, abs_of_neg negative, neg_neg]
  · rw [roundedTo_of_nonneg nonnegative, exactly, abs_of_nonneg nonnegative]

/-- A number with few enough decimals is shown as a decimal number. -/
theorem shows_roundedText {places : Nat} {q : Rat} (fits : fitsDecimal places q = true) :
    Shows false (roundedText places q) q := by
  have shown := shows_roundedTo places q
  rwa [roundedTo_of_fitsDecimal fits] at shown

/-! ## Renderings -/

/-- A way to show rational numbers, and which of them it shows as fractions: none of the integers. -/
structure Renders (render : Rat → Text) (fraction : Rat → Bool) : Prop where
  shows : ∀ q, Shows (fraction q) (render q) q
  integer : ∀ q, isInteger q = true → fraction q = false

theorem renders_text : Renders text fun q => !isInteger q := ⟨shows_text, by simp⟩

end Rational

end Reckoner
