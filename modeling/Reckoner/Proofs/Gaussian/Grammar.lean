import Reckoner.Proofs.Gaussian.Reading
import Reckoner.Proofs.Rational.Grammar
import Reckoner.Proofs.Value.Failures
/-!
# The grammar of complex literals

A literal is cut at its last sign, and its two parts are read by themselves; the one with the unit is the imaginary one.
Main statement (`parse_accepts`): which texts are read, and that each of them is written by the rules, with the parts that
it is read as, unless a star stands where a number is missing in front of the unit.
-/

namespace Reckoner.Gaussian

open Text Rational

/-! ## The grammar -/

/-- An imaginary part by the rules: a sign or nothing before the unit, or a rational literal, with or without a star. -/
inductive Imaginary : Text → Rat → Prop where
  | unit {sign e} : Sign sign e → Imaginary (sign ++ ['i']) e
  | multiple {t q} : Rational.parse t = .ok q → Imaginary (t ++ ['i']) q
  | starred {t q} : Rational.parse t = .ok q → Imaginary (t ++ ['*', 'i']) q

/-- A sign. -/
def IsSign (c : Char) : Prop := c = '+' ∨ c = '-'

/-- A literal by the rules, without spaces and in small letters: a part alone, or both, the second one with a sign. -/
inductive Literal : Text → Gaussian → Prop where
  | real {t q} : Rational.parse t = .ok q → Literal t ⟨q, 0⟩
  | imaginary {t q} : Imaginary t q → Literal t ⟨0, q⟩
  | realFirst {s c t p q} : Rational.parse s = .ok p → IsSign c → Imaginary (c :: t) q → Literal (s ++ c :: t) ⟨p, q⟩
  | imaginaryFirst {s c t p q} : Imaginary s q → IsSign c → Rational.parse (c :: t) = .ok p → Literal (s ++ c :: t) ⟨p, q⟩

/-- A star before the unit, without a number before the star. -/
inductive BareStar : Text → Rat → Prop where
  | signed {sign e} : Sign sign e → BareStar (sign ++ ['*', 'i']) e

/-- What is read as an imaginary part. -/
def ReadsImaginary (t : Text) (q : Rat) : Prop := Imaginary t q ∨ BareStar t q

/-- What is read as a literal. No sign follows the one between the parts, nor the first character of a part alone. -/
inductive Reads : Text → Gaussian → Prop where
  | real {t q} : Rational.parse t = .ok q → Reads t ⟨q, 0⟩
  | imaginary {t q} : ReadsImaginary t q → Signless t.tail → Reads t ⟨0, q⟩
  | realFirst {s c t p q} : Rational.parse s = .ok p → IsSign c → Signless t → ReadsImaginary (c :: t) q →
    Reads (s ++ c :: t) ⟨p, q⟩
  | imaginaryFirst {s c t p q} : ReadsImaginary s q → IsSign c → Signless t → Rational.parse (c :: t) = .ok p →
    Reads (s ++ c :: t) ⟨p, q⟩

/-! ## Imaginary parts -/

section

variable {t s : Text} {q : Rat}

theorem readRational?_eq_some : readImaginary?.readRational? t = .ok (some q) ↔ Rational.parse t = .ok q := by
  unfold readImaginary?.readRational?
  cases value : Rational.parse t with
  | ok r => simp
  | error e => split <;> simp_all [refuse]

/-- What stands before the unit and its star: a sign or nothing, or a rational literal. -/
def Coefficient (t : Text) (q : Rat) : Prop := Sign t q ∨ Rational.parse t = .ok q

theorem Coefficient.notMem (h : Coefficient t q) : 'i' ∉ t ∧ '*' ∉ t := by
  rcases h with sign | literal
  · cases sign <;> decide
  · exact ⟨notMem_of_parse literal (by decide), notMem_of_parse literal (by decide)⟩

theorem readsImaginary_iff : ReadsImaginary t q ↔
    ∃ s star, t = s ++ star ++ ['i'] ∧ (star = [] ∨ star = ['*']) ∧ Coefficient s q := by
  unfold ReadsImaginary
  constructor
  · rintro ((sign | literal | literal) | @⟨_, _, sign⟩)
    · exact ⟨_, [], by simp, .inl rfl, .inl sign⟩
    · exact ⟨_, [], by simp, .inl rfl, .inr literal⟩
    · exact ⟨_, ['*'], by simp, .inr rfl, .inr literal⟩
    · exact ⟨_, ['*'], by simp, .inr rfl, .inl sign⟩
  · rintro ⟨s, star, rfl, rfl | rfl, sign | literal⟩
    · simpa using Or.inl (Imaginary.unit sign)
    · simpa using Or.inl (Imaginary.multiple literal)
    · simpa using Or.inr (BareStar.signed sign)
    · simpa using Or.inl (Imaginary.starred literal)

theorem coefficient_iff :
    (if t = [] ∨ t = ['+'] then .ok (some 1) else if t = ['-'] then .ok (some (-1))
      else readImaginary?.readRational? t : Outcome (Option Rat)) = .ok (some q) ↔ Coefficient t q := by
  -- A sign is no rational literal, so that each text has one reading.
  have alone : ∀ {e}, Sign t e → Rational.parse t ≠ .ok q := by
    intro e sign literal
    cases sign <;> cases literal
  by_cases sign : ∃ e, Sign t e
  · obtain ⟨e, sign⟩ := sign
    have coefficient : Coefficient t q ↔ e = q := by
      constructor
      · rintro (same | literal)
        · cases sign <;> cases same <;> rfl
        · exact absurd literal (alone sign)
      · rintro rfl
        exact .inl sign
    rw [coefficient]
    cases sign <;> simp
  · have none : ¬(t = [] ∨ t = ['+']) ∧ t ≠ ['-'] := by
      refine ⟨?_, ?_⟩
      · rintro (rfl | rfl)
        · exact sign ⟨1, .none⟩
        · exact sign ⟨1, .plus⟩
      · rintro rfl
        exact sign ⟨-1, .minus⟩
    rw [if_neg none.1, if_neg none.2, readRational?_eq_some]
    exact ⟨.inr, fun h => h.resolve_left fun given => sign ⟨q, given⟩⟩

theorem readImaginary?_eq_some : readImaginary? t = .ok (some q) ↔ ReadsImaginary t q := by
  rw [readsImaginary_iff]
  constructor
  · intro h
    unfold readImaginary? at h
    split at h
    · cases h
    next s chopped =>
      obtain rfl := chop?_eq_some.1 chopped
      split at h
      · cases h
      · obtain ⟨star, split, starred⟩ := chop?_star s
        exact ⟨_, star, by rw [← split], starred, coefficient_iff.1 h⟩
  · rintro ⟨s, star, rfl, starred, coefficient⟩
    obtain ⟨unit, noStar⟩ := coefficient.notMem
    have once : 'i' ∉ s ++ star := by rcases starred with rfl | rfl <;> simp [unit]
    have chopped : (chop? '*' (s ++ star)).getD (s ++ star) = s := by
      rcases starred with rfl | rfl
      · rw [List.append_nil, chop?, if_neg fun last => noStar (List.mem_of_getLast? last), Option.getD_none]
      · rw [chop?_eq_some.2 rfl, Option.getD_some]
    rw [readImaginary?, chop?_eq_some.2 rfl]
    simp only [List.contains_eq_mem, once, decide_false, Bool.false_eq_true, if_false, chopped]
    exact coefficient_iff.2 coefficient

theorem ReadsImaginary.unit_mem (h : ReadsImaginary t q) : 'i' ∈ t := by
  obtain ⟨s, star, rfl, -, -⟩ := readsImaginary_iff.1 h
  simp

theorem unit_notMem (h : Rational.parse t = .ok q) : 'i' ∉ t := notMem_of_parse h (by decide)

end

/-! ## Cutting -/

section

variable {s s' t t' : Text} {c c' : Char}

theorem exists_lastSign (t : Text) : Signless t ∨ ∃ s c u, IsSign c ∧ Signless u ∧ t = s ++ c :: u := by
  induction t with
  | nil => exact .inl nofun
  | cons d t ih =>
    rcases ih with signless | ⟨s, c, u, sign, signless, rfl⟩
    · by_cases sign : IsSign d
      · exact .inr ⟨[], d, t, sign, signless, rfl⟩
      · exact .inl (List.forall_mem_cons.2 ⟨not_or.1 sign, signless⟩)
    · exact .inr ⟨d :: s, c, u, sign, signless, rfl⟩

/-- A text has one last sign. -/
theorem lastSign_unique (sign : IsSign c) (signless : Signless t) (sign' : IsSign c') (signless' : Signless t')
    (same : s ++ c :: t = s' ++ c' :: t') : s = s' ∧ c = c' ∧ t = t' := by
  have cut := cutAtLastSign?_append s sign signless
  rw [same, cutAtLastSign?_append s' sign' signless'] at cut
  simpa [eq_comm] using cut

/-- A text is one part, or cut before the sign of the second part. -/
theorem parts_cases (t : Text) :
    Signless t.tail ∨ ∃ s c u, s ≠ [] ∧ IsSign c ∧ Signless u ∧ t = s ++ c :: u := by
  cases t with
  | nil => exact .inl nofun
  | cons d t =>
    refine (exists_lastSign t).imp id ?_
    rintro ⟨s, c, u, sign, signless, rfl⟩
    exact ⟨d :: s, c, u, by simp, sign, signless, rfl⟩

/-- The sign between two parts is not the first character. -/
theorem not_signless_tail (nonempty : s ≠ []) (sign : IsSign c) : ¬Signless (s ++ c :: t).tail := by
  obtain ⟨d, s, rfl⟩ := List.exists_cons_of_ne_nil nonempty
  intro signless
  exact not_or.2 (signless c (by simp)) sign

end

/-! ## Literals -/

section

variable {s t u : Text} {c : Char} {z : Gaussian}

/-- What is read as a literal where there is one part, which has the unit. -/
theorem reads_part (unit : 'i' ∈ t) (one : Signless t.tail) : Reads t z ↔ z.re = 0 ∧ ReadsImaginary t z.im := by
  constructor
  · rintro (literal | ⟨imaginary, -⟩ | ⟨real, sign, -⟩ | ⟨imaginary, sign, -⟩)
    · exact absurd unit (unit_notMem literal)
    · exact ⟨rfl, imaginary⟩
    · exact absurd one (not_signless_tail (ne_nil_of_parse real) sign)
    · exact absurd one (not_signless_tail (List.ne_nil_of_mem imaginary.unit_mem) sign)
  · obtain ⟨re, im⟩ := z
    rintro ⟨rfl : re = 0, imaginary⟩
    exact .imaginary imaginary one

/-- What is read as a literal where there are two parts, at least one of them with the unit. -/
theorem reads_parts (unit : 'i' ∈ s ++ c :: u) (nonempty : s ≠ []) (sign : IsSign c) (signless : Signless u) :
    Reads (s ++ c :: u) z ↔ Rational.parse s = .ok z.re ∧ ReadsImaginary (c :: u) z.im ∨
      Rational.parse (c :: u) = .ok z.re ∧ ReadsImaginary s z.im := by
  constructor
  · intro h
    generalize whole : s ++ c :: u = t at h unit
    cases h with
    | real literal => exact absurd unit (unit_notMem literal)
    | imaginary _ one => exact absurd (whole ▸ one) (not_signless_tail nonempty sign)
    | realFirst real sign' signless' imaginary =>
      obtain ⟨rfl, rfl, rfl⟩ := lastSign_unique sign signless sign' signless' whole
      exact .inl ⟨real, imaginary⟩
    | imaginaryFirst imaginary sign' signless' real =>
      obtain ⟨rfl, rfl, rfl⟩ := lastSign_unique sign signless sign' signless' whole
      exact .inr ⟨real, imaginary⟩
  · rintro (⟨real, imaginary⟩ | ⟨real, imaginary⟩)
    · exact .realFirst real sign signless imaginary
    · exact .imaginaryFirst imaginary sign signless real

section

variable {cleaned : Text} (spelled : lower (withoutSpaces t) = cleaned)
include spelled

theorem parse_of_noUnit (noUnit : 'i' ∉ cleaned) :
    parse t = .ok z ↔ ∃ q, Rational.parse cleaned = .ok q ∧ z = ⟨q, 0⟩ := by
  simp only [parse, spelled]
  by_cases empty : cleaned = []
  · rw [empty, List.isEmpty_nil, if_pos rfl]
    refine ⟨fun read => absurd read Outcome.refuse_ne_ok, ?_⟩
    rintro ⟨q, literal, -⟩
    exact absurd rfl (ne_nil_of_parse literal)
  · rw [if_neg (by simpa using empty), if_pos (by simpa using noUnit), Outcome.map_eq_ok]
    simp [ofRat, eq_comm]

theorem parse_of_parts? {realText imaginaryText : Text} (unit : 'i' ∈ cleaned)
    (parts : parts? cleaned = some (realText, imaginaryText)) :
    parse t = .ok z ↔ (realText = [] ∧ z.re = 0 ∨ Rational.parse realText = .ok z.re) ∧
      ReadsImaginary imaginaryText z.im := by
  -- Once the real part is read, the imaginary one decides.
  have next : ∀ (re : Rat) (rest : Option Rat → Outcome Gaussian), rest none = refuse (.badComplex t) →
      (∀ im, rest (some im) = .ok ⟨re, im⟩) →
        ((readImaginary? imaginaryText >>= rest) = .ok z ↔ re = z.re ∧ ReadsImaginary imaginaryText z.im) := by
    intro re rest refused given
    rw [Outcome.bind_eq_ok, ← readImaginary?_eq_some]
    obtain ⟨x, y⟩ := z
    constructor
    · rintro ⟨_ | im, imaginary, result⟩
      · rw [refused] at result
        cases result
      · rw [given] at result
        cases result
        exact ⟨rfl, imaginary⟩
    · rintro ⟨rfl, imaginary⟩
      exact ⟨_, imaginary, given y⟩
  simp only [parse, spelled, parts]
  rw [if_neg (by simpa using List.ne_nil_of_mem unit), if_neg (by simpa using unit)]
  by_cases empty : realText = []
  · subst empty
    have none : Rational.parse [] ≠ .ok z.re := fun literal => ne_nil_of_parse literal rfl
    rw [List.isEmpty_nil, if_pos rfl, pure_bind]
    exact (next 0 _ rfl fun _ => rfl).trans (by simp [none, eq_comm])
  · rw [if_neg (by simpa using empty), Outcome.bind_eq_ok]
    constructor
    · rintro ⟨_ | re, read, result⟩
      · cases result
      · obtain ⟨rfl, imaginary⟩ := (next re _ rfl fun _ => rfl).1 result
        exact ⟨.inr (readRational?_eq_some.1 read), imaginary⟩
    · rintro ⟨real, imaginary⟩
      have read := readRational?_eq_some.2 (real.resolve_left fun h => empty h.1)
      exact ⟨_, read, (next z.re _ rfl fun _ => rfl).2 ⟨rfl, imaginary⟩⟩

theorem parse_of_no_parts (unit : 'i' ∈ cleaned) (parts : parts? cleaned = none) : parse t = refuse (.badComplex t) := by
  simp only [parse, spelled, parts]
  rw [if_neg (by simpa using List.ne_nil_of_mem unit), if_neg (by simpa using unit)]

end

/-- A text is read just if it is one of these literals, and as the number that its parts denote. -/
theorem parse_eq_ok_iff : parse t = .ok z ↔ Reads (lower (withoutSpaces t)) z := by
  generalize spelled : lower (withoutSpaces t) = cleaned
  by_cases unit : 'i' ∈ cleaned
  · rcases parts_cases cleaned with one | ⟨s, c, u, nonempty, sign, signless, rfl⟩
    · have parts : parts? cleaned = some ([], cleaned) := by simp [parts?, cutParts_whole one, unit]
      have noLiteral : Rational.parse [] ≠ .ok z.re := fun literal => ne_nil_of_parse literal rfl
      rw [parse_of_parts? spelled unit parts, reads_part unit one]
      simp [noLiteral]
    · have cut := cutParts_sign nonempty sign signless
      rw [reads_parts unit nonempty sign signless]
      have real : ∀ {v}, 'i' ∈ v → Rational.parse v ≠ .ok z.re := fun unit literal => unit_notMem literal unit
      have imaginary : ∀ {v}, 'i' ∉ v → ¬ReadsImaginary v z.im := fun noUnit h => noUnit h.unit_mem
      by_cases first : 'i' ∈ s <;> by_cases second : 'i' ∈ c :: u
      · have parts : parts? (s ++ c :: u) = none := by simp [parts?, cut, first, second]
        rw [parse_of_no_parts spelled unit parts]
        simp [real first, real second, refuse]
      · have parts : parts? (s ++ c :: u) = some (c :: u, s) := by simp [parts?, cut, first, second]
        rw [parse_of_parts? spelled unit parts]
        simp [real first]
      · have parts : parts? (s ++ c :: u) = some (s, c :: u) := by simp [parts?, cut, first, second]
        rw [parse_of_parts? spelled unit parts]
        simp [real second, nonempty]
      · exact absurd unit (List.not_mem_append first second)
  · rw [parse_of_noUnit spelled unit]
    constructor
    · rintro ⟨q, literal, rfl⟩
      exact .real literal
    · intro h
      cases h with
      | real literal => exact ⟨_, literal, rfl⟩
      | imaginary imaginary => exact absurd imaginary.unit_mem unit
      | realFirst _ _ _ imaginary => exact absurd (List.mem_append_right _ imaginary.unit_mem) unit
      | imaginaryFirst imaginary => exact absurd (List.mem_append_left _ imaginary.unit_mem) unit

/-! ## Literals by the rules -/

/-- A star that is the first character or follows a sign, and the unit after it. -/
def HasBareStar (t : Text) : Prop := ∃ before after, t = before ++ '*' :: 'i' :: after ∧ ∀ c ∈ before.getLast?, IsSign c

theorem BareStar.first {q : Rat} (h : BareStar t q) (after : Text) : HasBareStar (t ++ after) := by
  obtain @⟨sign, e, signed⟩ := h
  refine ⟨sign, after, by simp, fun c last => ?_⟩
  cases signed with
  | none => cases last
  | plus =>
    cases last
    exact .inl rfl
  | minus =>
    cases last
    exact .inr rfl

theorem BareStar.second {q : Rat} (front : Text) (sign : IsSign c) (h : BareStar (c :: u) q) : HasBareStar (front ++ c :: u) := by
  generalize second : c :: u = t at h
  obtain @⟨_, _, signed⟩ := h
  refine ⟨front ++ [c], [], ?_, by simpa using sign⟩
  cases signed with
  | none =>
    cases second
    rcases sign with star | star <;> cases star
  | plus =>
    cases second
    simp
  | minus =>
    cases second
    simp

/-- Where every star before the unit follows a number, the rules cover what is read. -/
theorem Reads.literal (h : Reads t z) (starred : ¬HasBareStar t) : Literal t z := by
  cases h with
  | real literal => exact .real literal
  | imaginary imaginary => exact .imaginary (imaginary.resolve_right fun bare => starred (by simpa using bare.first []))
  | realFirst real sign _ imaginary =>
    exact .realFirst real sign (imaginary.resolve_right fun bare => starred (bare.second _ sign))
  | imaginaryFirst imaginary sign _ real =>
    exact .imaginaryFirst (imaginary.resolve_right fun bare => starred (bare.first _)) sign real

/-- A text is read just if it is one of these literals, with the number that its parts denote; every other text is refused;
and what is read is a literal by the rules, unless it has a star with no number in front. -/
theorem parse_accepts (t : Text) :
    (∀ z, parse t = .ok z ↔ Reads (lower (withoutSpaces t)) z) ∧
      ((∃ f, parse t = refuse f) ↔ ∀ z, ¬Reads (lower (withoutSpaces t)) z) ∧
      ∀ z, parse t = .ok z → ¬HasBareStar (lower (withoutSpaces t)) → Literal (lower (withoutSpaces t)) z := by
  refine ⟨fun z => parse_eq_ok_iff, ⟨?_, fun none => ?_⟩, fun z read => (parse_eq_ok_iff.1 read).literal⟩
  · rintro ⟨f, refused⟩ z read
    exact absurd (refused.symm.trans (parse_eq_ok_iff.2 read)) Outcome.refuse_ne_ok
  · cases result : parse t with
    | ok z => exact absurd (parse_eq_ok_iff.1 result) (none z)
    | error e =>
      have refusal := parse_refusing t e result
      cases e with
      | fault f => exact ⟨f, rfl⟩
      | _ => cases refusal

/-- Capitals and spaces do not count. -/
theorem parse_accepts_twoParts : parse "2 * I - 1/2".toList = .ok ⟨-1/2, 2⟩ ∧
    ¬HasBareStar (lower (withoutSpaces "2 * I - 1/2".toList)) ∧
      Literal (lower (withoutSpaces "2 * I - 1/2".toList)) ⟨-1/2, 2⟩ := by
  have read : parse "2 * I - 1/2".toList = .ok ⟨-1/2, 2⟩ := by decide +kernel
  have starred : ¬HasBareStar (lower (withoutSpaces "2 * I - 1/2".toList)) := by
    have spelled : lower (withoutSpaces "2 * I - 1/2".toList) = "2*i-1/2".toList := by decide +kernel
    rw [spelled]
    rintro ⟨_ | ⟨a, _ | ⟨b, before⟩⟩, after, split, sign⟩
    · cases split
    · cases split
      rcases sign '2' rfl with plus | minus
      · cases plus
      · cases minus
    · have later : "i-1/2".toList = before ++ '*' :: 'i' :: after := (List.cons.inj (List.cons.inj split).2).2
      have star : '*' ∈ "i-1/2".toList := later ▸ by simp
      exact absurd star (by decide)
  exact ⟨read, starred, (parse_accepts _).2.2 _ read starred⟩

/-- A star alone is read before the unit, which no rule covers. -/
theorem bareStar_accepted : parse "*i".toList = .ok ⟨0, 1⟩ ∧
    ∀ z, ¬Literal (lower (withoutSpaces "*i".toList)) z := by
  refine ⟨by decide +kernel, fun z h => ?_⟩
  have spelled : lower (withoutSpaces "*i".toList) = ['*', 'i'] := by decide +kernel
  rw [spelled] at h
  generalize whole : ['*', 'i'] = t at h
  have noSign : ∀ {s c u}, IsSign c → t ≠ s ++ c :: u := by
    rintro s c u sign rfl
    have mem : c ∈ ['*', 'i'] := by simp [whole]
    rcases sign with rfl | rfl <;> exact absurd mem (by decide)
  cases h with
  | real literal => exact unit_notMem literal (whole ▸ by simp)
  | imaginary imaginary =>
    cases imaginary with
    | unit sign => cases sign <;> cases whole
    | @multiple s q literal =>
      have star : ['*'] = s := List.append_inj_left' (show ['*'] ++ ['i'] = s ++ ['i'] from whole) rfl
      exact notMem_of_parse literal (by decide) (star ▸ List.mem_singleton_self '*')
    | @starred s q literal =>
      have empty : [] = s := List.append_inj_left' (show [] ++ ['*', 'i'] = s ++ ['*', 'i'] from whole) rfl
      exact ne_nil_of_parse literal empty.symm
  | realFirst _ sign => exact noSign sign rfl
  | imaginaryFirst _ sign => exact noSign sign rfl

end

end Reckoner.Gaussian
