import Reckoner.Proofs.Line.Names
/-!
# Reading parts of a text

A text that is read by itself is read as the same tokens where it stands in front of another one, as long as that does not
reach into its last lexeme (`scan_append`). Where letters on both sides touch, they are read as one name instead
(`scan_straddle`).
-/

namespace Reckoner.Token

open CharClass Line

variable {c : Char} {s t rest : Text} {form : Kind} {n : Nat}

/-! ## Lexemes in front of a text -/

theorem closingBracket?_before {depth : Nat} (h : closingBracket? depth s = some n) (rest : Text) :
    closingBracket? depth (s ++ rest) = some n ∧ n ≤ s.length := by
  induction s generalizing depth n with
  | nil => cases h
  | cons c s ih =>
    have later : ∀ {depth}, (closingBracket? depth s).map (· + 1) = some n →
        (closingBracket? depth (s ++ rest)).map (· + 1) = some n ∧ n ≤ (c :: s).length := by
      intro depth counted
      obtain ⟨m, found, rfl⟩ := Option.map_eq_some_iff.1 counted
      obtain ⟨same, short⟩ := ih found
      exact ⟨by rw [same]; rfl, Nat.succ_le_succ short⟩
    rw [List.cons_append]
    unfold closingBracket? at h ⊢
    split at h
    next opening =>
      rw [if_pos opening]
      exact later h
    next other =>
      rw [if_neg other]
      split at h
      next closing =>
        rw [if_pos closing]
        split at h
        next last =>
          cases h
          exact ⟨if_pos last, by simp⟩
        next inner =>
          rw [if_neg inner]
          exact later h
      next plain =>
        rw [if_neg plain]
        exact later h

theorem spanDigits_before (s : Text) (stop : ∀ c ∈ rest.head?, isDigit c = false) :
    Text.spanDigits (s ++ rest) = ((Text.spanDigits s).1, (Text.spanDigits s).2 ++ rest) := by
  induction s with
  | nil =>
    cases rest with
    | nil => rfl
    | cons c rest => simp [Text.spanDigits, List.span_eq_takeWhile_dropWhile, stop c rfl]
  | cons c s ih =>
    simp only [Text.spanDigits, List.span_eq_takeWhile_dropWhile, Prod.mk.injEq] at ih ⊢
    cases digit : isDigit c with
    | false => simp [digit]
    | true => simpa [digit] using ih

theorem numberLength_before (s : Text) (stop : ∀ c ∈ rest.head?, isDigit c = false ∧ c ≠ '.') :
    numberLength (s ++ rest) = numberLength s := by
  have ends : ∀ c ∈ rest.head?, isDigit c = false := fun c mem => (stop c mem).1
  simp only [numberLength, spanDigits_before s ends]
  cases after : (Text.spanDigits s).2 with
  | nil =>
    cases rest with
    | nil => rfl
    | cons c rest =>
      have noPoint := (stop c rfl).2
      simp only [List.nil_append]
      split
      next same =>
        cases same
        exact absurd rfl noPoint
      next => rfl
  | cons c places =>
    by_cases point : c = '.'
    · subst point
      simp only [List.cons_append, spanDigits_before places ends]
    · simp [point]

theorem numberLength_le (s : Text) : numberLength s ≤ s.length := by
  obtain ⟨ds, tail, cut, rfl, -⟩ := Text.spanDigits_cut s
  simp only [numberLength, cut]
  split
  next more =>
    obtain ⟨es, last, cut', rfl, -⟩ := Text.spanDigits_cut more
    simp only [cut']
    split <;> simp
    omega
  next => simp

/-- What follows a text does not reach into its last lexeme: no number goes on, no name is called, and letters do not
touch. -/
structure Apart (t rest : Text) : Prop where
  plain : ∀ c ∈ rest.head?, isDigit c = false ∧ c ≠ '.' ∧ c ≠ '('
  letters : BeginsRun rest ∨ EndsRun t ∧ unitAhead rest = false

theorem Apart.notUnit (h : Apart t rest) : unitAhead rest = false := by
  rcases h.letters with begins | ⟨-, notUnit⟩
  · cases rest with
    | nil => rfl
    | cons c rest =>
      by_contra ahead
      have letter : isPlainLetter c = true := by
        simp only [unitAhead, Bool.not_eq_false, Bool.and_eq_true, Bool.or_eq_true, beq_iff_eq] at ahead
        rcases ahead.1 with rfl | rfl <;> decide
      rw [begins c rfl] at letter
      cases letter
  · exact notUnit

theorem Apart.suffix (h : Apart (s ++ t) rest) : Apart t rest where
  plain := h.plain
  letters := h.letters.imp id fun ⟨ends, notUnit⟩ => by
    refine ⟨?_, notUnit⟩
    cases t with
    | nil => exact .nil
    | cons c t =>
      intro d last
      refine ends d ?_
      rw [List.getLast?_append, last]
      rfl

/-- Whether the imaginary unit begins a text is seen within two characters. -/
theorem unitAhead_before (h : (s ≠ [] ∧ (unitAhead s = true → 2 ≤ s.length)) ∨ Apart (t ++ s) rest) :
    unitAhead (s ++ rest) = unitAhead s := by
  match s with
  | [] => exact (h.resolve_left (by simp)).notUnit
  | [c] =>
    cases unit : c == 'i' || c == 'I' with
    | false => simp [unitAhead, unit]
    | true =>
      have letter : isPlainLetter c = true := by
        simp only [Bool.or_eq_true, beq_iff_eq] at unit
        rcases unit with rfl | rfl <;> decide
      have touching := h.resolve_left (by simp [unitAhead, unit])
      rcases touching.letters with begins | ⟨ends, -⟩
      · cases rest with
        | nil => rfl
        | cons d rest => simp [unitAhead, begins d rfl]
      · rw [ends c (by simp)] at letter
        cases letter
  | c :: d :: s => rfl

/-- Letters that are not the unit alone are one name. -/
theorem lexeme?_letters {ls : Text} (letters : ∀ d ∈ c :: ls, isPlainLetter d = true) (named : isUnit (c :: ls) = false)
    (stop : BeginsRun rest) : lexeme? c (ls ++ rest) =
      some (if rest.head? = some '(' then .function else .operand .identifier, ls.length) := by
  obtain ⟨letter, all⟩ := List.forall_mem_cons.1 letters
  have bracket : c ≠ '[' := by
    rintro rfl
    cases letter
  have notUnit : ¬unitAhead (c :: (ls ++ rest)) = true := by
    intro ahead
    simp only [unitAhead, Bool.and_eq_true, Bool.or_eq_true, beq_iff_eq, Bool.not_eq_true'] at ahead
    obtain ⟨first, next⟩ := ahead
    cases ls with
    | nil => rcases first with rfl | rfl <;> cases named
    | cons d ls => simp [all d List.mem_cons_self] at next
  rw [lexeme?, if_neg bracket, if_neg (by simp [not_isDigit_of_isPlainLetter letter]), if_neg notUnit, if_pos letter]
  simp only [(takeWhile_letters all stop).1, List.drop_left]
  split <;> rfl

/-- A number stays what it is, if no number goes on. -/
theorem number_before (digit : isDigit c = true) (h : lexeme? c s = some (form, n))
    (stop : ∀ d ∈ rest.head?, isDigit d = false ∧ d ≠ '.') (apart : n < s.length ∨ Apart (c :: s) rest) :
    lexeme? c (s ++ rest) = some (form, n) ∧ n ≤ s.length := by
  rw [lexeme?_digit digit] at h ⊢
  have length : numberLength (c :: (s ++ rest)) = numberLength (c :: s) := numberLength_before (c :: s) stop
  have cut : (c :: (s ++ rest)).drop (numberLength (c :: s)) = (c :: s).drop (numberLength (c :: s)) ++ rest :=
    List.drop_append_of_le_length (numberLength_le (c :: s))
  have short : numberLength (c :: s) ≤ s.length + 1 := numberLength_le (c :: s)
  have left : ((c :: s).drop (numberLength (c :: s))).length = s.length + 1 - numberLength (c :: s) := List.length_drop
  have whole : (c :: s).take (numberLength (c :: s)) ++ (c :: s).drop (numberLength (c :: s)) = c :: s :=
    List.take_append_drop ..
  rw [length, cut]
  generalize (c :: s).drop (numberLength (c :: s)) = tail at *
  rw [← whole] at apart
  rcases ite_eq_iff.1 (Option.some.inj h) with ⟨ahead, eq⟩ | ⟨notAhead, eq⟩
  · cases eq
    have nonempty : 0 < tail.length := by
      cases tail with
      | nil => cases ahead
      | cons => simp
    have same : unitAhead (tail ++ rest) = unitAhead tail :=
      unitAhead_before (apart.imp (fun inner => ⟨List.ne_nil_of_length_pos nonempty, fun _ => by omega⟩) id)
    exact ⟨by rw [same]; exact h, by omega⟩
  · cases eq
    have same : unitAhead (tail ++ rest) = unitAhead tail :=
      unitAhead_before
        (apart.imp (fun inner => ⟨List.ne_nil_of_length_pos (by omega), fun ahead => absurd ahead notAhead⟩) id)
    exact ⟨by rw [same]; exact h, by omega⟩

/-- A name stays what it is, if the letters do not go on and it is not called. -/
theorem letters_before (letter : isPlainLetter c = true) (notUnit : ¬unitAhead (c :: s) = true)
    (h : lexeme? c s = some (form, n)) (value : ∀ d ∈ rest.head?, d ≠ '(') (apart : n < s.length ∨ Apart (c :: s) rest) :
    lexeme? c (s ++ rest) = some (form, n) ∧ n ≤ s.length := by
  obtain ⟨ls, ms, rfl, all, stop⟩ := exists_letters s
  have letters : ∀ d ∈ c :: ls, isPlainLetter d = true := List.forall_mem_cons.2 ⟨letter, all⟩
  have named := isUnit_eq_false stop notUnit
  rw [lexeme?_letters letters named stop] at h
  cases h
  have stop' : BeginsRun (ms ++ rest) := by
    cases ms with
    | cons d ms => exact stop
    | nil =>
      -- The letters go on to the end of the text, so they touch what follows.
      rw [List.append_nil] at apart
      refine (apart.resolve_left (Nat.lt_irrefl _)).letters.resolve_right fun ⟨ends, _⟩ => ?_
      have noLetter := ends _ (List.getLast?_eq_some_getLast (List.cons_ne_nil _ _))
      rw [letters _ (List.getLast_mem _)] at noLetter
      cases noLetter
  have paren : (ms ++ rest).head? = some '(' ↔ ms.head? = some '(' := by
    cases ms with
    | cons d ms => simp
    | nil => simpa using fun opening => value '(' opening rfl
  rw [List.append_assoc, lexeme?_letters letters named stop']
  exact ⟨by simp only [paren], by simp⟩

/-- A lexeme stays what it is in front of a text, if it ends before the last character or does not touch. -/
theorem lexeme?_before (h : lexeme? c s = some (form, n)) (plain : ∀ d ∈ rest.head?, isDigit d = false ∧ d ≠ '.' ∧ d ≠ '(')
    (apart : n < s.length ∨ Apart (c :: s) rest) (star : c = '*' → s ≠ []) :
    lexeme? c (s ++ rest) = some (form, n) ∧ n ≤ s.length := by
  by_cases digit : isDigit c = true
  · exact number_before digit h (fun d mem => ⟨(plain d mem).1, (plain d mem).2.1⟩) apart
  have named : isPlainLetter c = true → ¬unitAhead (c :: s) = true →
      lexeme? c (s ++ rest) = some (form, n) ∧ n ≤ s.length := fun letter notUnit =>
    letters_before letter notUnit h (fun d mem => (plain d mem).2.2) apart
  unfold lexeme? at h ⊢
  rcases ite_eq_iff.1 h with ⟨bracket, h⟩ | ⟨bracket, h⟩
  · rw [if_pos bracket]
    obtain ⟨m, found, eq⟩ := Option.map_eq_some_iff.1 h
    cases eq
    obtain ⟨same, short⟩ := closingBracket?_before found rest
    exact ⟨by rw [same]; rfl, short⟩
  rw [if_neg bracket, if_neg digit]
  rw [if_neg digit] at h
  rcases ite_eq_iff.1 h with ⟨unit, h⟩ | ⟨unit, h⟩
  · have ahead : unitAhead (c :: s ++ rest) = true := by
      rw [unitAhead_before (t := []) (apart.imp (fun inner => ?_) id), unit]
      cases h
      exact ⟨List.cons_ne_nil c s, fun _ => Nat.succ_le_succ inner⟩
    cases h
    exact ⟨if_pos ahead, Nat.zero_le _⟩
  have notAhead : ¬unitAhead (c :: s ++ rest) = true := by
    rw [unitAhead_before (t := []) (.inl ⟨List.cons_ne_nil c s, fun ahead => absurd ahead unit⟩)]
    exact unit
  rcases ite_eq_iff.1 h with ⟨letter, h⟩ | ⟨letter, h⟩
  · have name := named letter unit
    rwa [lexeme?, if_neg bracket, if_neg digit] at name
  rw [← List.cons_append, if_neg notAhead, if_neg letter]
  rcases ite_eq_iff.1 h with ⟨mark, h⟩ | ⟨mark, h⟩
  · rw [if_pos mark]
    obtain ⟨d, s, rfl⟩ := List.exists_cons_of_ne_nil (star mark)
    refine ⟨h, ?_⟩
    rcases ite_eq_iff.1 (Option.some.inj h) with ⟨-, h⟩ | ⟨-, h⟩ <;> cases h <;> simp
  rw [if_neg mark]
  iterate 7
    rcases ite_eq_iff.1 h with ⟨mark, h⟩ | ⟨mark, h⟩
    · rw [if_pos mark]
      cases h
      exact ⟨rfl, Nat.zero_le _⟩
    rw [if_neg mark]
  cases h

/-! ## Scanning a part -/

/-- The token `k` characters further on. -/
def moved (k : Nat) (t : Token) : Token := { t with position := k + t.position }

@[simp] theorem moved_kind (k : Nat) (t : Token) : (moved k t).kind = t.kind := rfl

variable {source source' : Text} {position depth depth' : Nat} {last : Option Kind} {us : List Token}

/-- A text may end where all parentheses are closed and no operand is expected. -/
theorem scan_nil_eq_ok (h : scan source position depth last [] = .ok us) :
    depth = 0 ∧ expectsOperand last = false ∧ us = [] := by
  rw [scan] at h
  split at h
  · cases h
  next closed =>
    split at h
    · cases h
    next complete =>
      cases h
      exact ⟨Decidable.not_not.1 closed, Bool.eq_false_iff.2 complete, rfl⟩

/-- Reading a lexeme that fits where it stands. -/
theorem scan_step (found : lexeme? c s = some (form, n))
    (nested : nesting source position depth (resolve last form) = .ok depth')
    (fit : fits last (resolve last form) = true) :
    scan source position depth last (c :: s) =
      (emitted last ⟨resolve last form, c :: s.take n, position⟩ ++ ·) <$>
        scan source (position + n + 1) depth' (some (resolve last form)) (s.drop n) := by
  rw [scan, found]
  simp only [nested, fit, Bool.not_true, Bool.false_eq_true, if_false, emitted]
  show (scan source (position + n + 1) depth' (some (resolve last form)) (s.drop n) >>= fun following => _) = _
  cases scan source (position + n + 1) depth' (some (resolve last form)) (s.drop n) with
  | error e => rfl
  | ok following =>
    show Except.ok _ = Except.ok _
    split <;> rfl

theorem nesting_add {k : Kind} (h : k.depthAfter? depth = some depth') (d : Nat) (source : Text) (position : Nat) :
    nesting source position (d + depth) k = .ok (d + depth') := by
  cases k with
  | opening => cases h; rfl
  | closing =>
    simp only [Kind.depthAfter?] at h
    split at h
    · cases h
    next positive =>
      cases h
      simp only [nesting, if_neg (show ¬d + depth = 0 by omega)]
      congr 1
      omega
  | _ => cases h; rfl

theorem emitted_moved (k : Nat) (last : Option Kind) (t : Token) :
    emitted last (moved k t) = (emitted last t).map (moved k) := by
  unfold emitted
  rw [moved_kind]
  split <;> rfl

theorem mem_emitted (last : Option Kind) (t : Token) : t ∈ emitted last t := by
  unfold emitted
  split <;> simp

/-- A text that is read by itself, inside no parentheses, is read as the same tokens in front of another one. -/
theorem scan_append {source : Text} {position depth : Nat} {last : Option Kind} {t : Text} {us : List Token}
    (h : scan source position depth last t = .ok us) : ∃ last', expectsOperand last' = false ∧
    ∀ (source' : Text) (k d : Nat) {rest : Text}, Apart t rest →
      scan source' (k + position) (d + depth) last (t ++ rest) =
        (us.map (moved k) ++ ·) <$> scan source' (k + (position + t.length)) d last' rest := by
  match t with
  | [] =>
    obtain ⟨rfl, complete, rfl⟩ := scan_nil_eq_ok h
    refine ⟨last, complete, fun source' k d rest _ => ?_⟩
    simp
  | c :: s =>
    obtain ⟨form, n, depth', following, found, nested, fit, read, rfl⟩ := scan_cons_eq_ok h
    obtain ⟨last', complete, reads⟩ := scan_append read
    refine ⟨last', complete, fun source' k d rest apart => ?_⟩
    have star : c = '*' → s ≠ [] := by
      rintro rfl rfl
      cases found
      cases (scan_nil_eq_ok read).2.1
    obtain ⟨stays, short⟩ := lexeme?_before found apart.plain (.inr apart) star
    have later : Apart (s.drop n) rest := by
      refine Apart.suffix (s := c :: s.take n) ?_
      rwa [List.cons_append, List.take_append_drop]
    rw [List.cons_append, scan_step stays (nesting_add nested d source' _) fit, List.drop_append_of_le_length short,
      List.take_append_of_le_length short]
    have next := reads source' k d later
    have start : k + position + n + 1 = k + (position + n + 1) := by omega
    have finish : k + (position + n + 1 + (s.drop n).length) = k + (position + (c :: s).length) := by
      simp only [List.length_drop, List.length_cons]
      omega
    rw [start, next, finish, List.map_append, ← emitted_moved, Functor.map_map]
    simp only [List.append_assoc]
    rfl
termination_by t.length
decreasing_by simp only [List.length_drop, List.length_cons]; omega

/-! ## Where a part may begin -/

theorem lexeme?_minus (h : lexeme? c s = some (.operator .minus, n)) : c = '-' := by
  by_cases operand : c = '[' ∨ isDigit c = true ∨ unitAhead (c :: s) = true ∨ isPlainLetter c
  · grind [lexeme?, Option.map_eq_some_iff]
  · grind [lexeme?]

/-- What is read where one operand is expected is read wherever one is, but a minus sign does not follow another one. -/
theorem scan_expecting {last' : Option Kind} (expects : expectsOperand last = true)
    (expects' : expectsOperand last' = true) (once : last' = some .negate → c ≠ '-')
    (h : scan source position depth last (c :: s) = .ok us) : scan source position depth last' (c :: s) = .ok us := by
  obtain ⟨form, n, depth', following, found, nested, fit, read, rfl⟩ := scan_cons_eq_ok h
  have resolved : resolve last' form = resolve last form := by
    unfold resolve
    split <;> simp [expects, expects']
  have joined : ∀ k, joins last' k = joins last k := by
    intro k
    unfold joins
    split <;> simp [expects, expects']
  have fit' : fits last' (resolve last' form) = true := by
    rw [resolved]
    cases kind : resolve last form with
    | operator | closing => simp [kind, fits, expects] at fit
    | negate =>
      have minus : form = .operator .minus := by
        cases form with
        | operator o => cases o <;> simp_all [resolve]
        | negate => exact absurd rfl (lexeme?_kind found).1
        | _ => cases kind
      subst minus
      simpa [fits] using fun negated => once negated (lexeme?_minus found)
    | _ => rfl
  have level : nesting source position depth (resolve last' form) = .ok depth' := by
    rw [resolved]
    simpa using nesting_add nested 0 source position
  rw [scan_step found level fit', resolved, read]
  show Except.ok _ = Except.ok _
  simp only [emitted, joined]

/-- Where an operand follows another one, a multiplication sign is put between them. -/
theorem scan_joined {o : Operand} (complete : expectsOperand last = false) (found : lexeme? c s = some (.operand o, n)) :
    scan source position depth last (c :: s) =
      (⟨.operator .times, ['*'], position⟩ :: ·) <$> scan source position depth (some (.operator .times)) (c :: s) := by
  have joined : emitted last ⟨.operand o, c :: s.take n, position⟩ =
      [⟨.operator .times, ['*'], position⟩, ⟨.operand o, c :: s.take n, position⟩] := by
    simp [emitted, joins, complete]
  rw [scan_step found rfl rfl, scan_step found rfl rfl, Functor.map_map]
  simp only [resolve, joined]
  rfl

/-! ## Letters that touch -/

/-- Letters that begin a text are read as one name. -/
theorem mem_name_of_scan {t : Text} {ts : List Token} (letters : ∀ d ∈ c :: t, isPlainLetter d = true)
    (named : isUnit (c :: t) = false) (stop : BeginsRun rest)
    (h : scan source position depth last (c :: (t ++ rest)) = .ok ts) :
    ∃ tok ∈ ts, (tok.kind = .operand .identifier ∨ tok.kind = .function) ∧ tok.value = c :: t := by
  obtain ⟨form, n, depth', following, found, -, -, -, rfl⟩ := scan_cons_eq_ok h
  have lexeme := lexeme?_letters letters named stop
  by_cases paren : rest.head? = some '('
  · rw [if_pos paren] at lexeme
    cases lexeme.symm.trans found
    exact ⟨_, List.mem_append_left _ (mem_emitted _ _), .inr rfl, by simp⟩
  · rw [if_neg paren] at lexeme
    cases lexeme.symm.trans found
    exact ⟨_, List.mem_append_left _ (mem_emitted _ _), .inl rfl, by simp⟩

theorem plain_of_letter (letter : isPlainLetter c = true) : isDigit c = false ∧ c ≠ '.' ∧ c ≠ '(' := by
  refine ⟨not_isDigit_of_isPlainLetter letter, ?_, ?_⟩ <;> rintro rfl <;> cases letter

theorem numberLength_pos (digit : isDigit c = true) (s : Text) : 0 < numberLength (c :: s) := by
  have whole : (Text.spanDigits (c :: s)).1 ≠ [] := by
    simp [Text.spanDigits, List.span_eq_takeWhile_dropWhile, digit]
  have positive := List.length_pos_iff.2 whole
  simp only [numberLength]
  split
  · split <;> omega
  · exact positive

/-- Where an imaginary number is a whole text, the unit is the last character. -/
theorem unit_of_imaginary (digit : isDigit c = true)
    (ahead : unitAhead ((c :: s).drop (numberLength (c :: s))) = true) (whole : s.length ≤ numberLength (c :: s)) :
    ∃ u, (u = 'i' ∨ u = 'I') ∧ s.drop (numberLength (c :: s) - 1) = [u] := by
  obtain ⟨k, length⟩ := Nat.exists_eq_succ_of_ne_zero (Nat.pos_iff_ne_zero.1 (numberLength_pos digit s))
  rw [length, List.drop_succ_cons] at ahead
  rw [length] at whole ⊢
  cases tail : s.drop k with
  | nil =>
    rw [tail] at ahead
    cases ahead
  | cons u more =>
    have single : more = [] := by
      have count := congrArg List.length tail
      simp only [List.length_drop, List.length_cons] at count
      exact List.length_eq_zero_iff.1 (by omega)
    rw [tail] at ahead
    simp only [unitAhead, Bool.and_eq_true, Bool.or_eq_true, beq_iff_eq] at ahead
    exact ⟨u, ahead.1, by rw [Nat.succ_eq_add_one, Nat.add_sub_cancel, tail, single]⟩

/-- In front of a letter the unit after a number is no unit: the number ends before it. -/
theorem number_before_letter {a : Char} (digit : isDigit c = true)
    (ahead : unitAhead ((c :: s).drop (numberLength (c :: s))) = true) (whole : s.length ≤ numberLength (c :: s))
    (letter : isPlainLetter a = true) (rest : Text) : ∃ u, isPlainLetter u = true ∧
      lexeme? c (s ++ a :: rest) = some (.operand .number, numberLength (c :: s) - 1) ∧
        (s ++ a :: rest).drop (numberLength (c :: s) - 1) = u :: a :: rest := by
  obtain ⟨u, unit, tail⟩ := unit_of_imaginary digit ahead whole
  have short : numberLength (c :: s) ≤ s.length + 1 := numberLength_le (c :: s)
  have cut : (s ++ a :: rest).drop (numberLength (c :: s) - 1) = u :: a :: rest := by
    rw [List.drop_append_of_le_length (by omega), tail]
    rfl
  refine ⟨u, by rcases unit with rfl | rfl <;> rfl, ?_, cut⟩
  have length : numberLength (c :: (s ++ a :: rest)) = numberLength (c :: s) := by
    refine numberLength_before (c :: s) ?_
    rintro _ ⟨⟩
    exact ⟨(plain_of_letter letter).1, (plain_of_letter letter).2.1⟩
  have next : (c :: (s ++ a :: rest)).drop (numberLength (c :: s)) = u :: a :: rest := by
    obtain ⟨k, count⟩ := Nat.exists_eq_succ_of_ne_zero (Nat.pos_iff_ne_zero.1 (numberLength_pos digit s))
    rw [count] at cut ⊢
    exact cut
  have named : unitAhead (u :: a :: rest) = false := by simp [unitAhead, letter]
  rw [lexeme?_digit digit, length, next, named]
  rfl

theorem isUnit_cons_cons (c d : Char) (t : Text) : isUnit (c :: d :: t) = false := by
  simp [isUnit]

/-- A last lexeme that ends with a letter goes on in the letters that follow. -/
theorem straddle_last {a : Char} {x : Text} {ts : List Token} (found : lexeme? c s = some (form, n))
    (last_lexeme : s.length ≤ n) (ends : ∃ b ∈ (c :: s).getLast?, isPlainLetter b = true)
    (letters : ∀ d ∈ a :: x, isPlainLetter d = true) (stop : BeginsRun rest)
    (h : scan source position depth last (c :: (s ++ (a :: x ++ rest))) = .ok ts) :
    ∃ tok ∈ ts, (tok.kind = .operand .identifier ∨ tok.kind = .function) ∧ (a :: x).length < tok.value.length := by
  have noLetters : ¬∀ d ∈ c :: s, isPlainLetter d = false := by
    intro none
    obtain ⟨b, last, letter⟩ := ends
    rw [none b (List.mem_of_getLast? last)] at letter
    cases letter
  have whole : s.take n = s := List.take_of_length_le last_lexeme
  have lexeme := lexeme_of_lexeme? found
  cases lexeme with
  | matrix _ closing =>
    obtain ⟨b, last, letter⟩ := ends
    have bracket := getLast?_of_closingBracket? closing
    rw [whole] at bracket
    rw [List.getLast?_cons, bracket] at last
    cases last
    cases letter
  | number digit =>
    refine absurd (fun d mem => numberLength_letters (c :: s) d ?_) noLetters
    have positive := numberLength_pos digit s
    rwa [List.take_of_length_le (by simp only [List.length_cons]; omega)]
  | imaginary digit ahead =>
    obtain ⟨u, letter, number, tail⟩ :=
      number_before_letter digit ahead last_lexeme (letters a List.mem_cons_self) (x ++ rest)
    obtain ⟨form', n', depth', following, found', -, -, read, rfl⟩ := scan_cons_eq_ok h
    cases number.symm.trans found'
    rw [List.cons_append, tail] at read
    obtain ⟨tok, mem, kind, value⟩ := mem_name_of_scan (t := a :: x) (List.forall_mem_cons.2 ⟨letter, letters⟩)
      (isUnit_cons_cons u a x) stop read
    exact ⟨tok, List.mem_append_right _ mem, kind, by simp [value]⟩
  | unit ahead =>
    obtain rfl : s = [] := List.length_eq_zero_iff.1 (Nat.le_zero.1 last_lexeme)
    have letter : isPlainLetter c = true := by
      obtain ⟨b, ⟨⟩, letter⟩ := ends
      exact letter
    obtain ⟨tok, mem, named, value⟩ := mem_name_of_scan (t := a :: x) (List.forall_mem_cons.2 ⟨letter, letters⟩)
      (isUnit_cons_cons c a x) stop h
    exact ⟨tok, mem, named, by simp [value]⟩
  | called split _ _ _ paren =>
    obtain ⟨rest', rfl⟩ := List.head?_eq_some_iff.1 paren
    simp only [split, List.length_append, List.length_cons] at last_lexeme
    omega
  | @name ls ms split all _ _ _ =>
    obtain rfl : ms = [] := by
      simp only [split, List.length_append] at last_lexeme
      exact List.length_eq_zero_iff.1 (by omega)
    have touching : ∀ d ∈ c :: (ls ++ a :: x), isPlainLetter d = true :=
      List.forall_mem_append.2 ⟨all, letters⟩
    have named : isUnit (c :: (ls ++ a :: x)) = false := by
      cases ls <;> exact isUnit_cons_cons _ _ _
    rw [split, List.append_nil, ← List.append_assoc] at h
    obtain ⟨tok, mem, kind, value⟩ := mem_name_of_scan touching named stop h
    refine ⟨tok, mem, kind, ?_⟩
    simp only [value, List.length_cons, List.length_append]
    omega
  | mark none _ _ _ =>
    rw [whole] at none
    exact absurd none noLetters

/-- A part that ends with a letter is not read as by itself in front of a letter: the two are in one name. -/
theorem scan_straddle {source source' : Text} {position position' depth depth' : Nat} {last : Option Kind} {t x : Text}
    {us ts : List Token} (h : scan source position depth last t = .ok us)
    (ends : ∃ b ∈ t.getLast?, isPlainLetter b = true) (nonempty : x ≠ []) (letters : ∀ d ∈ x, isPlainLetter d = true)
    (stop : BeginsRun rest) (whole : scan source' position' depth' last (t ++ (x ++ rest)) = .ok ts) :
    ∃ tok ∈ ts, (tok.kind = .operand .identifier ∨ tok.kind = .function) ∧ x.length < tok.value.length := by
  match t with
  | [] => obtain ⟨_, ⟨⟩, -⟩ := ends
  | c :: s =>
    obtain ⟨a, x, rfl⟩ := List.exists_cons_of_ne_nil nonempty
    obtain ⟨form, n, depth', following, found, nested, fit, read, rfl⟩ := scan_cons_eq_ok h
    rw [List.cons_append] at whole
    rcases Nat.lt_or_ge n s.length with inner | end_reached
    · -- The lexeme ends before the last character, so the part goes on after it.
      have plain : ∀ d ∈ (a :: x ++ rest).head?, isDigit d = false ∧ d ≠ '.' ∧ d ≠ '(' := by
        rintro _ ⟨⟩
        exact plain_of_letter (letters a List.mem_cons_self)
      have star : c = '*' → s ≠ [] := fun _ => List.ne_nil_of_length_pos (by omega)
      obtain ⟨stays, short⟩ := lexeme?_before found plain (.inl inner) star
      obtain ⟨form', n', depth'', following', found', -, -, read', rfl⟩ := scan_cons_eq_ok whole
      cases stays.symm.trans found'
      rw [List.drop_append_of_le_length short] at read'
      have ends : ∃ b ∈ (s.drop n).getLast?, isPlainLetter b = true := by
        obtain ⟨b, last, letter⟩ := ends
        refine ⟨b, ?_, letter⟩
        rw [List.getLast?_drop, if_neg (by omega)]
        cases s with
        | nil => simp at inner
        | cons d s => simpa using last
      obtain ⟨tok, mem, named⟩ := scan_straddle read ends nonempty letters stop read'
      exact ⟨tok, List.mem_append_right _ mem, named⟩
    · exact straddle_last found end_reached ends letters stop whole
termination_by t.length
decreasing_by simp only [List.length_drop, List.length_cons]; omega

end Reckoner.Token
