import Reckoner.Line.Names
import Reckoner.Proofs.Lists
import Reckoner.Proofs.Token.Placement
/-!
# The names that tokens stand for

Names are looked for in a text before it is read. Reading never ends a token between two letters, so every name that a token
holds is a whole run of letters in the text, and the name is found, as one that is called or one that is not.
-/

namespace Reckoner

open CharClass

/-! ## Letters -/

theorem CharClass.not_isDigit_of_isPlainLetter {c : Char} (h : isPlainLetter c = true) : isDigit c = false := by
  simp only [isPlainLetter, Bool.or_eq_true, Bool.and_eq_true, decide_eq_true_eq, Char.le_def] at h
  have low : c.toNat ≤ 122 := by
    simp only [Char.toNat, UInt32.le_iff_toNat_le] at h ⊢
    have lower : ('z' : Char).val.toNat = 122 := rfl
    have upper : ('Z' : Char).val.toNat = 90 := rfl
    omega
  have notDecimal : ¬('0' ≤ c ∧ c ≤ '9') := by
    simp only [Char.le_def, UInt32.le_iff_toNat_le] at h ⊢
    have nine : ('9' : Char).val.toNat = 57 := rfl
    have lower : ('a' : Char).val.toNat = 97 := rfl
    have upper : ('A' : Char).val.toNat = 65 := rfl
    omega
  have zerosAbove : ∀ z ∈ zeros, 122 < z := by decide
  rw [isDigit, digitValue?, if_neg notDecimal, Option.isSome_map, Option.isSome_eq_false_iff, Option.isNone_iff_eq_none,
    List.find?_eq_none]
  intro z mem
  have above := zerosAbove z mem
  simp only [Bool.and_eq_true, decide_eq_true_eq]
  omega

/-! ## Blanks -/

theorem Text.squeeze_append (s t : Text) : squeeze (s ++ t) = squeeze s ++ squeeze t := List.filter_append ..

/-- A space is a blank. -/
theorem Text.squeeze_withoutSpaces (t : Text) : squeeze (withoutSpaces t) = squeeze t := by
  rw [squeeze, squeeze, withoutSpaces, List.filter_filter]
  refine List.filter_congr fun c _ => ?_
  by_cases space : c = ' '
  · subst space
    decide
  · simp [space]

/-! ## Lists of texts -/

theorem Text.mem_distinct {t : Text} {ts : List Text} : t ∈ distinct ts ↔ t ∈ ts := by
  have seen : ∀ (ts seen : List Text), t ∈ ts.foldl (fun seen t => if seen.contains t then seen else seen ++ [t]) seen ↔
      t ∈ seen ∨ t ∈ ts := by
    intro ts
    induction ts with
    | nil => simp
    | cons u ts ih =>
      intro seen
      rw [List.foldl_cons, ih, List.mem_cons]
      split
      next present =>
        have known : t = u → t ∈ seen := by
          rintro rfl
          simpa using present
        tauto
      next => simp [or_assoc]
  rw [distinct, seen]
  simp

theorem Text.nodup_distinct (ts : List Text) : (distinct ts).Nodup := by
  suffices h : ∀ seen : List Text, seen.Nodup →
      (ts.foldl (fun seen t => if seen.contains t then seen else seen ++ [t]) seen).Nodup from h [] .nil
  induction ts with
  | nil => exact fun seen nodup => nodup
  | cons u ts ih =>
    intro seen nodup
    rw [List.foldl_cons]
    split
    · exact ih _ nodup
    next absent =>
      have fresh : ∀ t ∈ seen, t ≠ u := by
        rintro t mem rfl
        simp [mem] at absent
      exact ih _ (by simpa [List.nodup_append, nodup] using fresh)

namespace Line

/-! ## Words -/

/-- A word of plain letters that is not the imaginary unit. -/
def IsName (name : Text) : Prop := name ≠ [] ∧ (∀ c ∈ name, c.isAlpha = true) ∧ name ≠ ['i'] ∧ name ≠ ['I']

instance : DecidablePred IsName := fun name =>
  decidable_of_iff (name ≠ [] ∧ name.all Char.isAlpha = true ∧ name ≠ ['i'] ∧ name ≠ ['I']) (by simp [IsName])

theorem isAlpha_iff {c : Char} : c.isAlpha = true ↔ isPlainLetter c = true := by
  have alpha : c.isAlpha = (c.isUpper || c.isLower) := rfl
  have upper : c.isUpper = decide ('A'.val ≤ c.val ∧ c.val ≤ 'Z'.val) := rfl
  have lower : c.isLower = (decide ('a'.val ≤ c.val) && decide (c.val ≤ 'z'.val)) := rfl
  simp only [alpha, upper, lower, isPlainLetter, Bool.or_eq_true, Bool.and_eq_true, decide_eq_true_eq, Char.le_def]
  exact or_comm

theorem IsName.letters {name : Text} (h : IsName name) : ∀ c ∈ name, isPlainLetter c = true := fun c mem =>
  isAlpha_iff.1 (h.2.1 c mem)

theorem IsName.notUnit {name : Text} (h : IsName name) : isUnit name = false := by
  obtain ⟨-, -, small, large⟩ := h
  simp [isUnit, small, large]

theorem isName_of_checkName {name source : Text} (h : checkName name source = .ok ()) : IsName name := by
  unfold checkName at h
  split at h
  · cases h
  next c rest =>
    split at h
    · cases h
    split at h
    · cases h
    next letters =>
      split at h
      · cases h
      next notUnit =>
        simp only [isUnit, Bool.or_eq_true, beq_iff_eq, not_or] at notUnit
        refine ⟨List.cons_ne_nil c rest, fun d mem => isAlpha_iff.2 ?_, notUnit⟩
        simp only [Bool.not_eq_true, Bool.not_eq_false', List.all_eq_true] at letters
        exact letters d mem

/-! ## Runs of letters -/

/-- No letter ends the first text. -/
def EndsRun (t : Text) : Prop := ∀ c ∈ t.getLast?, isPlainLetter c = false

/-- No letter begins the text. -/
def BeginsRun (t : Text) : Prop := ∀ c ∈ t.head?, isPlainLetter c = false

variable {before run rest t : Text}

theorem EndsRun.nil : EndsRun [] := nofun

theorem EndsRun.tail {c : Char} (h : EndsRun (c :: t)) : EndsRun t := by
  cases t with
  | nil => exact .nil
  | cons d t => simpa [EndsRun] using h

theorem EndsRun.append_cons (s : Text) {c : Char} (h : EndsRun (c :: t)) : EndsRun (s ++ c :: t) := by
  intro d last
  refine h d ?_
  rw [List.getLast?_append, List.getLast?_cons, Option.some_or] at last
  rwa [List.getLast?_cons]

theorem EndsRun.append {s : Text} (hs : EndsRun s) (ht : EndsRun t) : EndsRun (s ++ t) := by
  cases t with
  | nil => rwa [List.append_nil]
  | cons c t => exact ht.append_cons s

theorem takeWhile_letters (letters : ∀ c ∈ run, isPlainLetter c = true) (ends : BeginsRun rest) :
    (run ++ rest).takeWhile isPlainLetter = run ∧ (run ++ rest).dropWhile isPlainLetter = rest := by
  have cut := Lists.span_append letters ends
  rw [List.span_eq_takeWhile_dropWhile] at cut
  exact ⟨congrArg Prod.fst cut, congrArg Prod.snd cut⟩

/-- A text is cut where the letters at its start end. -/
theorem exists_letters (t : Text) : ∃ ls ms, t = ls ++ ms ∧ (∀ c ∈ ls, isPlainLetter c = true) ∧ BeginsRun ms := by
  refine ⟨t.takeWhile isPlainLetter, t.dropWhile isPlainLetter, List.takeWhile_append_dropWhile.symm, fun c mem => ?_,
    fun c mem => ?_⟩
  · exact List.all_eq_true.1 List.all_takeWhile c mem
  · have stop := List.head?_dropWhile_not isPlainLetter t
    rw [mem] at stop
    simpa using stop

/-- A whole run of letters is found. -/
theorem mem_letterRuns (before : Text) (nonempty : run ≠ []) (letters : ∀ c ∈ run, isPlainLetter c = true)
    (begins : EndsRun before) (ends : BeginsRun rest) : (run, rest) ∈ letterRuns (before ++ (run ++ rest)) := by
  match before with
  | [] =>
    obtain ⟨c, cs, rfl⟩ := List.exists_cons_of_ne_nil nonempty
    obtain ⟨letter, later⟩ := List.forall_mem_cons.1 letters
    obtain ⟨taken, left⟩ := takeWhile_letters later ends
    rw [List.nil_append, List.cons_append, letterRuns, if_pos letter, taken, left]
    exact List.mem_cons_self
  | b :: bs =>
    rw [List.cons_append, letterRuns]
    split
    next letter =>
      -- The run that starts here ends before the last character, which is no letter.
      obtain ⟨ls, ms, split, all, stop⟩ := exists_letters bs
      rw [split] at begins ⊢
      cases ms with
      | nil =>
        have last : isPlainLetter ((b :: ls).getLast (by simp)) = true :=
          List.forall_mem_cons (p := fun c => isPlainLetter c = true).2 ⟨letter, all⟩ _ (List.getLast_mem _)
        rw [List.append_nil] at begins
        rw [begins _ (List.getLast?_eq_some_getLast _)] at last
        cases last
      | cons m ms =>
        have shorter : (m :: ms).length ≤ bs.length := by simp [split]
        have next : BeginsRun (m :: ms ++ (run ++ rest)) := fun c mem => stop c mem
        rw [List.append_assoc, (takeWhile_letters all next).2]
        have begins : EndsRun (m :: ms) := by
          intro c mem
          refine begins c ?_
          rw [← List.cons_append, List.getLast?_append, mem]
          rfl
        exact List.mem_cons_of_mem _ (mem_letterRuns (m :: ms) nonempty letters begins ends)
    next => exact mem_letterRuns bs nonempty letters begins.tail ends
termination_by before.length
decreasing_by
  · exact Nat.lt_succ_self _
  · exact Nat.lt_succ_of_le shorter

/-! ## Names -/

/-- A whole run of letters is a name, unless it is the unit. -/
theorem mem_names (squeezed : Text.squeeze t = before ++ (run ++ rest)) (nonempty : run ≠ [])
    (letters : ∀ c ∈ run, isPlainLetter c = true) (notUnit : isUnit run = false) (begins : EndsRun before)
    (ends : BeginsRun rest) : (run, rest.head? == some '(') ∈ names t := by
  have found := mem_letterRuns before nonempty letters begins ends
  rw [← squeezed] at found
  exact List.mem_map.2 ⟨(run, rest), List.mem_filter.2 ⟨found, by simp [notUnit]⟩, rfl⟩

theorem mem_variableNames {name : Text} : name ∈ variableNames t ↔ (name, false) ∈ names t := by
  simp [variableNames, Text.mem_distinct]

theorem mem_functionNames {name : Text} : name ∈ functionNames t ↔ (name, true) ∈ names t := by
  simp [functionNames, Text.mem_distinct]

/-! ## Parts of a text -/

/-- A part of a text that cuts no run of letters, and no called name from its parenthesis. -/
def Within (s t : Text) : Prop :=
  ∃ before after, Text.squeeze t = before ++ (Text.squeeze s ++ after) ∧ EndsRun before ∧ BeginsRun after ∧
    after.head? ≠ some '('

theorem BeginsRun.append {s : Text} (hs : BeginsRun s) (ht : BeginsRun t) : BeginsRun (s ++ t) := by
  cases s with
  | nil => exact ht
  | cons c s => exact hs

theorem Within.refl (t : Text) : Within t t := ⟨[], [], by simp, nofun, nofun, nofun⟩

theorem Within.trans {s u : Text} (hs : Within s t) (ht : Within t u) : Within s u := by
  obtain ⟨before, after, inside, begins, ends, apart⟩ := hs
  obtain ⟨before', after', outside, begins', ends', apart'⟩ := ht
  refine ⟨before' ++ before, after ++ after', ?_, begins'.append begins, ends.append ends', ?_⟩
  · rw [outside, inside]
    simp only [List.append_assoc]
  · cases after with
    | nil => exact apart'
    | cons c after => exact apart

/-- The characters that stand around the parts of a matrix literal. -/
def isSeparator (c : Char) : Bool := [',', ';', '[', ']'].contains c

theorem within_of_separated {s before after : Text} (split : t = before ++ (s ++ after))
    (begins : before = [] ∨ ∃ front c, before = front ++ [c] ∧ isSeparator c = true)
    (ends : after = [] ∨ ∃ c rest, after = c :: rest ∧ isSeparator c = true) : Within s t := by
  have separators : ∀ c, isSeparator c = true → isBlank c = false ∧ isPlainLetter c = false ∧ c ≠ '(' := by
    intro c separator
    simp only [isSeparator, List.contains_eq_mem, decide_eq_true_eq, List.mem_cons, List.not_mem_nil, or_false] at separator
    rcases separator with rfl | rfl | rfl | rfl <;> decide
  refine ⟨Text.squeeze before, Text.squeeze after, by rw [split]; simp [Text.squeeze], ?_, ?_⟩
  · rcases begins with rfl | ⟨front, c, rfl, separator⟩
    · exact .nil
    · obtain ⟨visible, noLetter, -⟩ := separators c separator
      simpa [EndsRun, Text.squeeze, visible] using noLetter
  · rcases ends with rfl | ⟨c, rest, rfl, separator⟩
    · exact ⟨nofun, nofun⟩
    · obtain ⟨visible, noLetter, noParen⟩ := separators c separator
      simpa [BeginsRun, Text.squeeze, visible] using ⟨noLetter, noParen⟩

theorem within_of_mem_splitOn {c : Char} (separator : isSeparator c = true) {s : Text} (h : s ∈ t.splitOn c) :
    Within s t := by
  obtain ⟨before, after, split, begins, ends⟩ := Lists.exists_of_mem_splitOn h
  refine within_of_separated split (begins.imp id ?_) (ends.imp id ?_)
  · rintro ⟨front, rfl⟩
    exact ⟨front, c, rfl, separator⟩
  · rintro ⟨rest, rfl⟩
    exact ⟨c, rest, rfl, separator⟩

theorem within_of_between? {s : Text} (h : Text.between? '[' ']' t = some s) : Within s t := by
  cases t with
  | nil => cases h
  | cons c t =>
    simp only [Text.between?, Text.chop?] at h
    split at h
    next opening =>
      split at h
      next closing =>
        cases h
        have split : c :: t = [c] ++ (t.dropLast ++ [']']) := by
          obtain ⟨front, rfl⟩ := List.getLast?_eq_some_iff.1 closing
          simp
        exact within_of_separated split (.inr ⟨[], c, rfl, opening ▸ rfl⟩) (.inr ⟨']', [], rfl, rfl⟩)
      · cases h
    · cases h

theorem within_withoutSpaces (t : Text) : Within (Text.withoutSpaces t) t :=
  ⟨[], [], by simp [Text.squeeze_withoutSpaces], nofun, nofun, nofun⟩

end Line

namespace Token

open Line

/-! ## Lexemes -/

theorem getLast?_of_closingBracket? {depth : Nat} {t : Text} {n : Nat} (h : closingBracket? depth t = some n) :
    (t.take n).getLast? = some ']' := by
  induction t generalizing depth n with
  | nil => cases h
  | cons c t ih =>
    have later : ∀ {depth m}, closingBracket? depth t = some m → ((c :: t).take (m + 1)).getLast? = some ']' := by
      intro depth m found
      rw [List.take_succ_cons, List.getLast?_cons, ih found]
      rfl
    unfold closingBracket? at h
    split at h
    · obtain ⟨m, found, rfl⟩ := Option.map_eq_some_iff.1 h
      exact later found
    · split at h
      next closing =>
        split at h
        · cases h
          simp [closing]
        · obtain ⟨m, found, rfl⟩ := Option.map_eq_some_iff.1 h
          exact later found
      · obtain ⟨m, found, rfl⟩ := Option.map_eq_some_iff.1 h
        exact later found

theorem beginsRun_of_unitAhead {c : Char} {t : Text} (h : unitAhead (c :: t) = true) : BeginsRun t := by
  intro d mem
  simp only [unitAhead, Bool.and_eq_true, Bool.not_eq_true'] at h
  simpa [Option.mem_def.1 mem] using h.2

/-- A number is made of digits and a point. -/
theorem numberLength_characters (t : Text) : ∀ d ∈ t.take (numberLength t), isDigit d = true ∨ d = '.' := by
  obtain ⟨whole, rest, cut, rfl, digits⟩ := Text.spanDigits_cut t
  have digits : ∀ d ∈ whole, isDigit d = true ∨ d = '.' := fun d mem => .inl (digits d mem)
  simp only [numberLength, cut]
  split
  next tail =>
    obtain ⟨places, more, cut', rfl, digits'⟩ := Text.spanDigits_cut tail
    simp only [cut']
    split
    · rwa [List.take_left]
    · have taken : (whole ++ '.' :: (places ++ more)).take (whole.length + 1 + places.length) = whole ++ '.' :: places := by
        rw [Nat.add_assoc, List.take_length_add_append, Nat.add_comm 1, List.take_succ_cons, List.take_left]
      rw [taken]
      exact List.forall_mem_append.2 ⟨digits, List.forall_mem_cons.2 ⟨.inr rfl, fun d mem => .inl (digits' d mem)⟩⟩
  next => rwa [List.take_left]

/-- No character of a number is a letter. -/
theorem numberLength_letters (t : Text) : ∀ d ∈ t.take (numberLength t), isPlainLetter d = false := by
  intro d mem
  by_contra letter
  have letter : isPlainLetter d = true := by simpa using letter
  rcases numberLength_characters t d mem with digit | rfl
  · rw [not_isDigit_of_isPlainLetter letter] at digit
    cases digit
  · cases letter

/-- The lexemes that begin with `c`: their kinds, and how many of the characters in `rest` belong to them. -/
inductive Lexeme (c : Char) (rest : Text) : Kind → Nat → Prop where
  | matrix {n} : c = '[' → closingBracket? 1 rest = some n → Lexeme c rest (.operand .matrix) n
  | imaginary : isDigit c = true → unitAhead ((c :: rest).drop (numberLength (c :: rest))) = true →
    Lexeme c rest (.operand .imaginary) (numberLength (c :: rest))
  | number : isDigit c = true → Lexeme c rest (.operand .number) (numberLength (c :: rest) - 1)
  | unit : unitAhead (c :: rest) = true → Lexeme c rest (.operand .imaginary) 0
  | called {ls ms} : rest = ls ++ ms → (∀ d ∈ c :: ls, isPlainLetter d = true) → BeginsRun ms →
    isUnit (c :: ls) = false → ms.head? = some '(' → Lexeme c rest .function ls.length
  | name {ls ms} : rest = ls ++ ms → (∀ d ∈ c :: ls, isPlainLetter d = true) → BeginsRun ms →
    isUnit (c :: ls) = false → ms.head? ≠ some '(' → Lexeme c rest (.operand .identifier) ls.length
  | mark {form n} : (∀ d ∈ c :: rest.take n, isPlainLetter d = false) → (form = .operator .modulo → c = '%') →
    (∀ o, form ≠ .operand o) → form ≠ .function → Lexeme c rest form n

variable {c : Char} {rest : Text} {form : Kind} {n : Nat}

theorem isUnit_eq_false {ls ms : Text} (stop : BeginsRun ms) (notUnit : ¬unitAhead (c :: (ls ++ ms)) = true) :
    isUnit (c :: ls) = false := by
  rw [Bool.eq_false_iff]
  intro unit
  have alone : ls = [] := by
    rcases Bool.or_eq_true_iff.1 unit with unit | unit <;> simp_all
  subst alone
  refine notUnit (Bool.and_eq_true_iff.2 ⟨by simpa [isUnit] using unit, ?_⟩)
  cases ms with
  | nil => rfl
  | cons d ms => simp [stop d rfl]

theorem lexeme_of_lexeme? (h : lexeme? c rest = some (form, n)) : Lexeme c rest form n := by
  unfold lexeme? at h
  rcases ite_eq_iff.1 h with ⟨bracket, h⟩ | ⟨-, h⟩
  · obtain ⟨m, found, eq⟩ := Option.map_eq_some_iff.1 h
    cases eq
    exact .matrix bracket found
  rcases ite_eq_iff.1 h with ⟨digit, h⟩ | ⟨-, h⟩
  · rcases ite_eq_iff.1 (Option.some.inj h) with ⟨ahead, h⟩ | ⟨-, h⟩
    · cases h
      exact .imaginary digit ahead
    · cases h
      exact .number digit
  rcases ite_eq_iff.1 h with ⟨ahead, h⟩ | ⟨notUnit, h⟩
  · cases h
    exact .unit ahead
  rcases ite_eq_iff.1 h with ⟨letter, h⟩ | ⟨notLetter, h⟩
  · obtain ⟨ls, ms, rfl, all, stop⟩ := exists_letters rest
    simp only [(takeWhile_letters all stop).1, List.drop_left] at h
    have letters : ∀ d ∈ c :: ls, isPlainLetter d = true := List.forall_mem_cons.2 ⟨letter, all⟩
    have named := isUnit_eq_false stop notUnit
    rcases ite_eq_iff.1 (Option.some.inj h) with ⟨paren, h⟩ | ⟨other, h⟩
    · cases h
      exact .called rfl letters stop named paren
    · cases h
      exact .name rfl letters stop named other
  have first : isPlainLetter c = false := Bool.eq_false_iff.2 notLetter
  have single : ∀ k, (k = .operator .modulo → c = '%') → (∀ o, k ≠ .operand o) → k ≠ .function → Lexeme c rest k 0 :=
    fun k => .mark (List.forall_mem_singleton.2 first)
  rcases ite_eq_iff.1 h with ⟨-, h⟩ | ⟨-, h⟩
  · rcases ite_eq_iff.1 (Option.some.inj h) with ⟨second, h⟩ | ⟨-, h⟩
    · obtain ⟨tail, rfl⟩ := List.head?_eq_some_iff.1 second
      cases h
      exact .mark (List.forall_mem_cons.2 ⟨first, List.forall_mem_singleton.2 (by decide)⟩) nofun nofun nofun
    · cases h
      exact single _ nofun nofun nofun
  iterate 7
    rcases ite_eq_iff.1 h with ⟨mark, h⟩ | ⟨-, h⟩
    · cases h
      exact single _ (fun _ => by first | assumption | contradiction) nofun nofun
  cases h

/-- A letter that ends a lexeme is the last of its run. -/
theorem Lexeme.apart (h : Lexeme c rest form n) : EndsRun (c :: rest.take n) ∨ BeginsRun (rest.drop n) := by
  have noLetters : ∀ {t : Text}, (∀ d ∈ t, isPlainLetter d = false) → EndsRun t := fun all d last =>
    all d (List.mem_of_getLast? last)
  cases h with
  | matrix _ found =>
    left
    intro d last
    rw [List.getLast?_cons, getLast?_of_closingBracket? found] at last
    obtain rfl := Option.some.inj last
    rfl
  | imaginary _ ahead =>
    right
    -- The unit is the last character of the lexeme.
    cases tail : (c :: rest).drop (numberLength (c :: rest)) with
    | nil =>
      rw [tail] at ahead
      cases ahead
    | cons u more =>
      rw [tail] at ahead
      have next : rest.drop (numberLength (c :: rest)) = more := by
        rw [← List.drop_succ_cons (a := c), ← List.tail_drop, tail, List.tail_cons]
      rw [next]
      exact beginsRun_of_unitAhead ahead
  | number digit =>
    left
    refine noLetters (List.forall_mem_cons.2 ⟨?_, fun d mem => ?_⟩)
    · by_contra letter
      rw [not_isDigit_of_isPlainLetter (by simpa using letter)] at digit
      cases digit
    · refine numberLength_letters (c :: rest) d ?_
      cases length : numberLength (c :: rest) with
      | zero => simp [length] at mem
      | succ k =>
        rw [length, Nat.add_sub_cancel] at mem
        exact List.mem_cons_of_mem _ mem
  | unit ahead => exact .inr (beginsRun_of_unitAhead ahead)
  | called split _ ends | name split _ ends =>
    right
    rw [split, List.drop_left]
    exact ends
  | mark all _ _ _ => exact .inl (noLetters all)

/-! ## Tokens -/

/-- A token of a text stands in it as a lexeme, unless it is a multiplication sign that was left out. -/
def Stands (t : Text) (tok : Token) : Prop :=
  ∃ before c rest form n, t = before ++ c :: rest ∧ Lexeme c rest form n ∧ (EndsRun before ∨ isPlainLetter c = false) ∧
    (∃ last, tok.kind = resolve last form) ∧ tok.value = c :: rest.take n

variable {t source : Text} {tok : Token} {ts : List Token}

/-- What stands in the rest of a text after a lexeme stands in the text. -/
theorem Stands.after (lexeme : Lexeme c rest form n) (h : Stands (rest.drop n) tok) : Stands (c :: rest) tok := by
  obtain ⟨before, d, more, form', m, split, lexeme', apart, kind, value⟩ := h
  refine ⟨c :: rest.take n ++ before, d, more, form', m, ?_, lexeme', ?_, kind, value⟩
  · rw [List.append_assoc, ← split, List.cons_append, List.take_append_drop]
  · cases before with
    | nil =>
      rw [List.append_nil]
      refine lexeme.apart.imp id fun begins => begins d ?_
      rw [split]
      rfl
    | cons b bs => exact apart.imp (.append_cons _) id

theorem stands_of_mem_scan {position depth : Nat} {last : Option Kind} {t : Text} {ts : List Token}
    (h : scan source position depth last t = .ok ts) (mem : tok ∈ ts) :
    tok.kind = .operator .times ∨ Stands t tok := by
  match t with
  | [] =>
    rw [scan] at h
    split at h
    · cases h
    · split at h
      · cases h
      · cases h
        cases mem
  | c :: rest =>
    obtain ⟨form, n, depth', following, found, -, -, read, rfl⟩ := scan_cons_eq_ok h
    have lexeme := lexeme_of_lexeme? found
    rcases List.mem_append.1 mem with here | later
    · have first : Stands (c :: rest) ⟨resolve last form, c :: rest.take n, position⟩ :=
        ⟨[], c, rest, form, n, rfl, lexeme, .inl .nil, ⟨last, rfl⟩, rfl⟩
      unfold emitted at here
      split at here
      · rcases List.mem_cons.1 here with rfl | here
        · exact .inl rfl
        · exact .inr (List.mem_singleton.1 here ▸ first)
      · exact .inr (List.mem_singleton.1 here ▸ first)
    · exact (stands_of_mem_scan read later).imp id (.after lexeme)
termination_by t.length
decreasing_by simp only [List.length_drop, List.length_cons]; omega

theorem stands_of_mem_tokenize (h : tokenize t source = .ok ts) (mem : tok ∈ ts) :
    tok.kind = .operator .times ∨ Stands (Text.squeeze t) tok := by
  simp only [tokenize] at h
  split at h
  · cases h
  · exact stands_of_mem_scan h mem

theorem resolve_eq {last : Option Kind} {kind : Kind} (h : resolve last form = kind) (notMinus : kind ≠ .operator .minus)
    (notNegate : kind ≠ .negate) : form = kind := by
  unfold resolve at h
  split at h
  · split at h
    · exact absurd h.symm notNegate
    · exact absurd h.symm notMinus
  · exact h

section Names

variable (h : tokenize t source = .ok ts) (mem : tok ∈ ts)
include h mem

theorem lexeme_of_token {k : Kind} (kind : tok.kind = k)
    (plain : k ≠ .operator .times ∧ k ≠ .operator .minus ∧ k ≠ .negate) : ∃ before c rest n,
      Text.squeeze t = before ++ c :: rest ∧ Lexeme c rest k n ∧ (EndsRun before ∨ isPlainLetter c = false) ∧
        tok.value = c :: rest.take n := by
  rcases stands_of_mem_tokenize h mem with times | ⟨before, c, rest, form, n, split, lexeme, apart, ⟨last, resolved⟩, value⟩
  · exact absurd (kind.symm.trans times) plain.1
  · cases resolve_eq (resolved.symm.trans kind) plain.2.1 plain.2.2
    exact ⟨before, c, rest, n, split, lexeme, apart, value⟩

/-- A name that stands for a value is found among the names of the text, and of every text that it is a part of. -/
theorem mem_variableNames_of_token (kind : tok.kind = .operand .identifier) {u : Text} (part : Within t u) :
    tok.value ∈ variableNames u := by
  obtain ⟨before, c, rest, n, split, lexeme, apart, value⟩ := lexeme_of_token h mem kind ⟨nofun, nofun, nofun⟩
  obtain ⟨front, after, outside, begins, ends, noParen⟩ := part
  cases lexeme with
  | mark _ _ notOperand _ => exact absurd rfl (notOperand _)
  | @name ls ms rest letters stop named other =>
    subst rest
    have begins := begins.append (apart.resolve_right (by simp [letters c List.mem_cons_self]))
    have whole : Text.squeeze u = front ++ before ++ (c :: ls ++ (ms ++ after)) := by
      rw [outside, split]
      simp
    have found := mem_names whole (List.cons_ne_nil _ _) letters named begins (stop.append ends)
    have value? : (ms ++ after).head? ≠ some '(' := by
      cases ms with
      | nil => exact noParen
      | cons d ms => exact other
    rw [value, List.take_left, mem_variableNames]
    rwa [beq_false_of_ne value?] at found

/-- A name that is called is found among the called names of the text, and of every text that it is a part of. -/
theorem mem_functionNames_of_token (kind : tok.kind = .function) {u : Text} (part : Within t u) :
    tok.value ∈ Line.functionNames u := by
  obtain ⟨before, c, rest, n, split, lexeme, apart, value⟩ := lexeme_of_token h mem kind ⟨nofun, nofun, nofun⟩
  obtain ⟨front, after, outside, begins, ends, -⟩ := part
  cases lexeme with
  | mark _ _ _ notCalled => exact absurd rfl notCalled
  | @called ls ms rest letters stop named paren =>
    subst rest
    have begins := begins.append (apart.resolve_right (by simp [letters c List.mem_cons_self]))
    have whole : Text.squeeze u = front ++ before ++ (c :: ls ++ (ms ++ after)) := by
      rw [outside, split]
      simp
    have found := mem_names whole (List.cons_ne_nil _ _) letters named begins (stop.append ends)
    rw [value, List.take_left, mem_functionNames]
    rwa [List.head?_append, paren] at found

theorem mem_percent_of_token (kind : tok.kind = .operator .modulo) : '%' ∈ t := by
  obtain ⟨before, c, rest, n, split, lexeme, apart, value⟩ := lexeme_of_token h mem kind ⟨nofun, nofun, nofun⟩
  cases lexeme with
  | mark _ percent _ _ =>
    obtain rfl := percent rfl
    exact (List.mem_filter.1 (split ▸ List.mem_append_right before List.mem_cons_self)).1

theorem mem_bracket_of_token (kind : tok.kind = .operand .matrix) : '[' ∈ t := by
  obtain ⟨before, c, rest, n, split, lexeme, apart, value⟩ := lexeme_of_token h mem kind ⟨nofun, nofun, nofun⟩
  cases lexeme with
  | mark _ _ notOperand _ => exact absurd rfl (notOperand _)
  | matrix bracket _ =>
    subst bracket
    exact (List.mem_filter.1 (split ▸ List.mem_append_right before List.mem_cons_self)).1

end Names

end Token

end Reckoner
