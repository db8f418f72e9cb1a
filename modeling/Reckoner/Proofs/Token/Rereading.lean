import Reckoner.Proofs.Token.Pieces
import Reckoner.Proofs.Token.Weight
/-!
# Reading tokens again

The characters of the tokens of an expression, one after the other, are read as the same tokens (`scan_written`). After a
lexeme stands what stood there before, or a multiplication sign that was left out, and neither reaches into the lexeme.
-/

namespace Reckoner.Token

open CharClass Line Text

variable {c : Char} {s t w source : Text} {form : Kind} {n position depth : Nat} {last : Option Kind} {ts : List Token}

/-! ## Numbers and brackets cut out -/

/-- A number is a run of digits, or two with a point between them. -/
theorem take_numberLength (t : Text) : ∃ ds, (∀ d ∈ ds, isDigit d = true) ∧ (t.take (numberLength t) = ds ∨
    ∃ es, es ≠ [] ∧ (∀ d ∈ es, isDigit d = true) ∧ t.take (numberLength t) = ds ++ '.' :: es) := by
  obtain ⟨ds, rest, cut, rfl, digits⟩ := spanDigits_cut t
  refine ⟨ds, digits, ?_⟩
  simp only [numberLength, cut]
  split
  next tail =>
    obtain ⟨es, more, cut', rfl, digits'⟩ := spanDigits_cut tail
    simp only [cut']
    split
    · exact .inl List.take_left
    next places =>
      refine .inr ⟨es, by simpa using places, digits', ?_⟩
      rw [Nat.add_assoc, List.take_length_add_append, Nat.add_comm 1, List.take_succ_cons, List.take_left]
  next => exact .inl List.take_left

theorem numberLength_point {ds es : Text} (digits : ∀ d ∈ ds, isDigit d = true) (places : ∀ d ∈ es, isDigit d = true)
    (nonempty : es ≠ []) : numberLength (ds ++ '.' :: es) = (ds ++ '.' :: es).length := by
  have cut : spanDigits (ds ++ '.' :: es) = (ds, '.' :: es) := Lists.span_append digits (by rintro _ ⟨⟩; decide)
  have cut' : spanDigits (es ++ []) = (es, []) := Lists.span_append places nofun
  rw [List.append_nil] at cut'
  simp only [numberLength, cut, cut', List.isEmpty_eq_false_iff.2 nonempty]
  simp [Nat.add_assoc, Nat.add_comm 1]

theorem numberLength_take (t : Text) : numberLength (t.take (numberLength t)) = (t.take (numberLength t)).length := by
  obtain ⟨ds, digits, eq | ⟨es, nonempty, places, eq⟩⟩ := take_numberLength t
  · have alone : numberLength (ds ++ []) = ds.length := numberLength_digits digits nofun
    rwa [List.append_nil, ← eq] at alone
  · rw [eq]
    exact numberLength_point digits places nonempty

/-- A number that is cut out is as long as before, in front of what does not go on with it. -/
theorem numberLength_take_append (t : Text) (stop : ∀ d ∈ w.head?, isDigit d = false ∧ d ≠ '.') :
    numberLength (t.take (numberLength t) ++ w) = numberLength t := by
  rw [numberLength_before _ stop, numberLength_take, List.length_take_of_le (numberLength_le t)]

theorem closingBracket?_take (h : closingBracket? depth s = some n) : closingBracket? depth (s.take n) = some n := by
  induction s generalizing depth n with
  | nil => cases h
  | cons c s ih =>
    have later : ∀ {depth}, (closingBracket? depth s).map (· + 1) = some n →
        ∃ m, n = m + 1 ∧ closingBracket? depth (s.take m) = some m := by
      intro depth counted
      obtain ⟨m, found, rfl⟩ := Option.map_eq_some_iff.1 counted
      exact ⟨m, rfl, ih found⟩
    rw [closingBracket?] at h
    split at h
    next opening =>
      obtain ⟨m, rfl, again⟩ := later h
      rw [List.take_succ_cons, closingBracket?, if_pos opening, again]
      rfl
    next other =>
      split at h
      next closing =>
        split at h
        next inside =>
          cases h
          rw [List.take_succ_cons, closingBracket?, if_neg other, if_pos closing, if_pos inside]
        next inside =>
          obtain ⟨m, rfl, again⟩ := later h
          rw [List.take_succ_cons, closingBracket?, if_neg other, if_pos closing, if_neg inside, again]
          rfl
      next plain =>
        obtain ⟨m, rfl, again⟩ := later h
        rw [List.take_succ_cons, closingBracket?, if_neg other, if_neg plain, again]
        rfl

/-! ## Marks -/

/-- The kinds of marks of one character. The star is none of them, since it may be the first of two. -/
def mark? (c : Char) : Option Kind :=
  if c = '^' then some (.operator .power)
  else if c = '+' then some (.operator .plus)
  else if c = '-' then some (.operator .minus)
  else if c = '/' then some (.operator .divide)
  else if c = '%' then some (.operator .modulo)
  else if c = '(' then some .opening
  else if c = ')' then some .closing
  else none

/-- What begins no operand and no name is a mark. -/
theorem lexeme?_eq_mark (bracket : c ≠ '[') (digit : isDigit c = false) (letter : isPlainLetter c = false) (s : Text) :
    lexeme? c s = if c = '*' then some (if s.head? = some '*' then (.operator .matrixTimes, 1) else (.operator .times, 0))
      else (mark? c).map (·, 0) := by
  have notUnit : ¬unitAhead (c :: s) = true := fun ahead => by
    rw [letter_of_unitAhead ahead] at letter
    cases letter
  rw [lexeme?, if_neg bracket, if_neg (by simp [digit]), if_neg notUnit, if_neg (by simp [letter]), mark?]
  split_ifs <;> rfl

theorem plain_of_mark (h : lexeme? c s = some (form, n)) (noOperand : ∀ o, form ≠ .operand o) (noCall : form ≠ .function) :
    c ≠ '[' ∧ isDigit c = false ∧ isPlainLetter c = false := by
  refine ⟨?_, ?_, ?_⟩
  · rintro rfl
    obtain ⟨m, -, eq⟩ := Option.map_eq_some_iff.1 (show (closingBracket? 1 s).map _ = _ from h)
    cases eq
    exact noOperand _ rfl
  · by_contra digit
    rw [lexeme?_digit (by simpa using digit)] at h
    rcases ite_eq_iff.1 (Option.some.inj h) with ⟨-, eq⟩ | ⟨-, eq⟩ <;> cases eq <;> exact noOperand _ rfl
  · cases lexeme_of_lexeme? h with
    | mark letters => exact letters c List.mem_cons_self
    | called => exact absurd rfl noCall
    | _ => exact absurd rfl (noOperand _)

theorem lexeme?_mark_again (h : lexeme? c s = some (form, n)) (noOperand : ∀ o, form ≠ .operand o)
    (noCall : form ≠ .function) (star : form = .operator .times → w.head? ≠ some '*') :
    lexeme? c (s.take n ++ w) = some (form, n) ∧ n ≤ s.length := by
  obtain ⟨bracket, digit, letter⟩ := plain_of_mark h noOperand noCall
  rw [lexeme?_eq_mark bracket digit letter] at h ⊢
  split at h
  next first =>
    rw [if_pos first]
    rcases ite_eq_iff.1 (Option.some.inj h) with ⟨second, eq⟩ | ⟨-, eq⟩
    · cases eq
      obtain ⟨tail, rfl⟩ := List.head?_eq_some_iff.1 second
      simp
    · cases eq
      simp [star rfl]
  next other =>
    obtain ⟨k, mark, eq⟩ := Option.map_eq_some_iff.1 h
    cases eq
    rw [if_neg other, mark]
    exact ⟨rfl, Nat.zero_le _⟩

/-! ## Lexemes cut out -/

/-- What follows does not begin with a character of a word. -/
def NoWord (w : Text) : Prop := ∀ d ∈ w.head?, isWord d = false

theorem NoWord.plain (h : NoWord w) : ∀ d ∈ w.head?, isDigit d = false ∧ isPlainLetter d = false ∧ d ≠ '.' := by
  intro d mem
  simpa [isWord, and_assoc] using h d mem

theorem NoWord.stop (h : NoWord w) : ∀ d ∈ w.head?, isDigit d = false ∧ d ≠ '.' := fun d mem =>
  ⟨(h.plain d mem).1, (h.plain d mem).2.2⟩

theorem NoWord.beginsRun (h : NoWord w) : BeginsRun w := fun d mem => (h.plain d mem).2.1

theorem NoWord.notUnit (h : NoWord w) : unitAhead w = false := by
  cases w with
  | nil => rfl
  | cons d w =>
    by_contra ahead
    have letter := letter_of_unitAhead (by simpa using ahead)
    rw [h.beginsRun d rfl] at letter
    cases letter

theorem NoWord.unit (h : NoWord w) (ahead : unitAhead (c :: s) = true) : unitAhead (c :: w) = true := by
  simp only [unitAhead, Bool.and_eq_true] at ahead ⊢
  refine ⟨ahead.1, ?_⟩
  cases w with
  | nil => rfl
  | cons d w => simp [h.beginsRun d rfl]

/-- What may stand after a lexeme without reaching into it. -/
def MayFollow (form : Kind) (w : Text) : Prop :=
  match form with
  | .operand _ => NoWord w ∧ w.head? ≠ some '('
  | .function => w.head? = some '('
  | .operator .times => w.head? ≠ some '*'
  | _ => True

theorem number_again (digit : isDigit c = true) (next : NoWord w) :
    lexeme? c (s.take (numberLength (c :: s) - 1) ++ w) = some (.operand .number, numberLength (c :: s) - 1) := by
  have short := numberLength_le (c :: s)
  have cut : c :: (s.take (numberLength (c :: s) - 1) ++ w) = (c :: s).take (numberLength (c :: s)) ++ w := by
    rw [← List.cons_append, ← List.take_succ_cons, Nat.sub_add_cancel (numberLength_pos digit s)]
  rw [lexeme?_digit digit, cut, numberLength_take_append _ next.stop, List.drop_left' (List.length_take_of_le short),
    next.notUnit]
  rfl

theorem imaginary_again (digit : isDigit c = true) (ahead : unitAhead ((c :: s).drop (numberLength (c :: s))) = true)
    (next : NoWord w) : lexeme? c (s.take (numberLength (c :: s)) ++ w) = some (.operand .imaginary, numberLength (c :: s)) ∧
      numberLength (c :: s) ≤ s.length := by
  have short := numberLength_le (c :: s)
  cases tail : (c :: s).drop (numberLength (c :: s)) with
  | nil =>
    rw [tail] at ahead
    cases ahead
  | cons u more =>
    rw [tail] at ahead
    have here : (c :: s)[numberLength (c :: s)]? = some u := by rw [← List.head?_drop, tail, List.head?_cons]
    have cut : c :: (s.take (numberLength (c :: s)) ++ w) = (c :: s).take (numberLength (c :: s)) ++ u :: w := by
      rw [← List.cons_append, ← List.take_succ_cons, List.take_add_one, here, List.append_assoc]
      rfl
    have stop : ∀ d ∈ (u :: w).head?, isDigit d = false ∧ d ≠ '.' := by
      rintro _ ⟨⟩
      have plain := plain_of_letter (letter_of_unitAhead ahead)
      exact ⟨plain.1, plain.2.1⟩
    refine ⟨?_, Nat.le_of_lt_succ (List.getElem?_eq_some_iff.1 here).1⟩
    rw [lexeme?_digit digit, cut, numberLength_take_append _ stop, List.drop_left' (List.length_take_of_le short),
      next.unit ahead]
    rfl

/-- A lexeme that is cut out is read as the same lexeme. -/
theorem lexeme?_again (h : lexeme? c s = some (form, n)) (next : MayFollow form w) :
    lexeme? c (s.take n ++ w) = some (form, n) ∧ n ≤ s.length := by
  -- One case for each way to begin a lexeme: where it ends is up to what follows, which may not go on with it.
  cases lexeme_of_lexeme? h with
  | matrix bracket closing =>
    subst bracket
    obtain ⟨again, -⟩ := closingBracket?_before (closingBracket?_take closing) w
    refine ⟨?_, (closingBracket?_before closing []).2⟩
    show (closingBracket? 1 (s.take n ++ w)).map _ = _
    rw [again]
    rfl
  | imaginary digit ahead => exact imaginary_again digit ahead next.1
  | number digit =>
    have short := numberLength_le (c :: s)
    exact ⟨number_again digit next.1, Nat.sub_le_of_le_add short⟩
  | unit ahead =>
    have word : NoWord w := next.1
    have letter := letter_of_unitAhead ahead
    have bracket : c ≠ '[' := by
      rintro rfl
      cases letter
    refine ⟨?_, Nat.zero_le _⟩
    rw [List.take_zero, List.nil_append, lexeme?, if_neg bracket, if_neg (by simp [not_isDigit_of_isPlainLetter letter]),
      if_pos (word.unit ahead)]
  | @called ls ms split letters ends named paren =>
    have open? : w.head? = some '(' := next
    have stop : BeginsRun w := by
      intro d mem
      rw [open?] at mem
      cases mem
      rfl
    subst s
    rw [List.take_left, lexeme?_letters letters named stop, if_pos open?]
    exact ⟨rfl, by simp⟩
  | @name ls ms split letters ends named other =>
    have word : NoWord w := next.1
    subst s
    rw [List.take_left, lexeme?_letters letters named word.beginsRun, if_neg next.2]
    exact ⟨rfl, by simp⟩
  | mark _ _ noOperand noCall =>
    refine lexeme?_mark_again h noOperand noCall ?_
    rintro rfl
    exact next

/-! ## Runs -/

/-- What holds where a text ends, and of the tokens of a lexeme in front of tokens of which it holds, holds of all tokens
that are read. -/
theorem scan_induction {motive : Nat → Nat → Option Kind → Text → List Token → Prop}
    (nil : ∀ {position last}, expectsOperand last = false → motive position 0 last [] [])
    (lexeme : ∀ {position depth last c rest form n depth' following}, lexeme? c rest = some (form, n) →
      (resolve last form).depthAfter? depth = some depth' → fits last (resolve last form) = true →
      scan source (position + n + 1) depth' (some (resolve last form)) (rest.drop n) = .ok following →
      motive (position + n + 1) depth' (some (resolve last form)) (rest.drop n) following →
      motive position depth last (c :: rest) (emitted last ⟨resolve last form, c :: rest.take n, position⟩ ++ following))
    {position depth : Nat} {last : Option Kind} {t : Text} {ts : List Token} (h : scan source position depth last t = .ok ts) :
    motive position depth last t ts := by
  match t with
  | [] =>
    obtain ⟨rfl, complete, rfl⟩ := scan_nil_eq_ok h
    exact nil complete
  | c :: rest =>
    obtain ⟨form, n, depth', following, found, nested, fit, read, rfl⟩ := scan_cons_eq_ok h
    exact lexeme found nested fit read (scan_induction (motive := motive) nil lexeme read)
termination_by t.length
decreasing_by simp only [List.length_drop, List.length_cons]; omega

/-- The characters of tokens, one after the other. -/
def written (ts : List Token) : Text := ts.flatMap (·.value)

/-- Tokens with the positions they have where they are written from `position` on. -/
def placed (position : Nat) : List Token → List Token
  | [] => []
  | tok :: ts => { tok with position } :: placed (position + tok.value.length) ts

theorem emitted_of_joins {tok : Token} (joined : joins last tok.kind = true) :
    emitted last tok = [⟨.operator .times, ['*'], tok.position⟩, tok] := if_pos joined

theorem emitted_of_apart {tok : Token} (apart : joins last tok.kind = false) : emitted last tok = [tok] :=
  if_neg (by simp [apart])

theorem joins_of_expects (expects : expectsOperand last = true) (k : Kind) : joins last k = false := by
  unfold joins
  split <;> simp [expects]

theorem written_emitted (last : Option Kind) (tok : Token) (ts : List Token) :
    written (emitted last tok ++ ts) = (if joins last tok.kind then ['*'] else []) ++ (tok.value ++ written ts) := by
  unfold emitted
  split <;> rfl

theorem notWord_of_mark (h : lexeme? c s = some (form, n)) (noOperand : ∀ o, form ≠ .operand o)
    (noCall : form ≠ .function) : isWord c = false := by
  obtain ⟨-, digit, letter⟩ := plain_of_mark h noOperand noCall
  have point : c ≠ '.' := by
    rintro rfl
    cases h
  simp [isWord, digit, letter, point]

/-- What is not joined to an operand before it is a mark, and opens no parenthesis. -/
theorem mark_of_apart (found : lexeme? c s = some (form, n)) (complete : expectsOperand last = false)
    (apart : joins last (resolve last form) = false) : isWord c = false ∧ c ≠ '(' := by
  have noOperand : ∀ o, form ≠ .operand o := by
    rintro o rfl
    simp [resolve, joins, complete] at apart
  have noCall : form ≠ .function := by
    rintro rfl
    simp [resolve, joins, complete] at apart
  refine ⟨notWord_of_mark found noOperand noCall, ?_⟩
  rintro rfl
  cases (show lexeme? '(' s = some (.opening, 0) from rfl).symm.trans found
  simp [resolve, joins, complete] at apart

/-- Where an operand is expected, what is written begins as the text that was read. -/
theorem head?_written (h : scan source position depth last t = .ok ts) (expects : expectsOperand last = true) :
    (written ts).head? = t.head? := by
  cases t with
  | nil =>
    obtain ⟨-, -, rfl⟩ := scan_nil_eq_ok h
    rfl
  | cons c rest =>
    obtain ⟨form, n, depth', following, -, -, -, -, rfl⟩ := scan_cons_eq_ok h
    rw [written_emitted, joins_of_expects expects]
    rfl

/-- After an operand, what is written begins with a mark, if with anything. -/
theorem noWord_written (h : scan source position depth last t = .ok ts) (complete : expectsOperand last = false) :
    NoWord (written ts) ∧ (written ts).head? ≠ some '(' := by
  cases t with
  | nil =>
    obtain ⟨-, -, rfl⟩ := scan_nil_eq_ok h
    exact ⟨nofun, nofun⟩
  | cons c rest =>
    obtain ⟨form, n, depth', following, found, -, -, -, rfl⟩ := scan_cons_eq_ok h
    rw [written_emitted]
    cases joined : joins last (resolve last form) with
    | true => exact ⟨by rintro _ ⟨⟩; decide, nofun⟩
    | false =>
      obtain ⟨mark, noParen⟩ := mark_of_apart found complete joined
      exact ⟨by rintro _ ⟨⟩; exact mark, fun paren => noParen (Option.some.inj paren)⟩

theorem mayFollow_written (found : lexeme? c s = some (form, n))
    (read : scan source position depth (some (resolve last form)) (s.drop n) = .ok ts) : MayFollow form (written ts) := by
  cases form with
  | operand o => exact noWord_written read rfl
  | function => exact (head?_written read rfl).trans ((lexeme?_kind found).2 rfl)
  | operator o =>
    cases o with
    | times =>
      show (written ts).head? ≠ some '*'
      rw [head?_written read rfl]
      exact head?_ne_star read rfl
    | _ => trivial
  | _ => trivial

/-- What is joined to an operand is read alike after every token, and does not begin with a star. -/
theorem resolve_of_joins (found : lexeme? c s = some (form, n)) (joined : joins last (resolve last form) = true) :
    expectsOperand last = false ∧ c ≠ '*' ∧ (∀ last', resolve last' form = form) ∧ ∀ last', fits last' form = true := by
  have notMinus : form ≠ .operator .minus := by
    rintro rfl
    cases expects : expectsOperand last <;> simp [resolve, joins, expects] at joined
  have same : ∀ last', resolve last' form = form := by
    intro last'
    unfold resolve
    split
    · exact absurd rfl notMinus
    · rfl
  rw [same] at joined
  refine ⟨?_, ?_, same, ?_⟩
  · unfold joins at joined
    split at joined <;> simp_all
  · rintro rfl
    rcases ite_eq_iff.1 (Option.some.inj (show some _ = some _ from found)) with ⟨-, eq⟩ | ⟨-, eq⟩ <;> cases eq <;>
      cases joined
  · intro last'
    unfold joins at joined
    split at joined <;> simp_all [fits]

/-- The characters of the tokens that are read are read as the same tokens, wherever they stand. -/
theorem scan_written (h : scan source position depth last t = .ok ts) :
    ∀ source' position', scan source' position' depth last (written ts) = .ok (placed position' ts) := by
  refine scan_induction (motive := fun _ depth last _ ts => ∀ source' position',
    scan source' position' depth last (written ts) = .ok (placed position' ts)) ?_ ?_ h
  -- The position and the shown text are free in the induction, since a sign that was left out moves all that follows.
  · intro position last complete source' position'
    show scan source' position' 0 last [] = .ok []
    rw [scan, if_neg (by simp), complete]
    rfl
  · intro position depth last c rest form n depth' following found nested fit read ih source' position'
    obtain ⟨again, short⟩ := lexeme?_again found (mayFollow_written found read)
    have taken : (rest.take n ++ written following).take n = rest.take n := List.take_left' (List.length_take_of_le short)
    have dropped : (rest.take n ++ written following).drop n = written following :=
      List.drop_left' (List.length_take_of_le short)
    have length : (c :: rest.take n).length = n + 1 := by simp [short]
    have level : ∀ p, nesting source' p depth (resolve last form) = .ok depth' := fun p => by
      simpa using nesting_add nested 0 source' p
    rw [written_emitted]
    cases joined : joins last (resolve last form) with
    | false =>
      show scan source' position' depth last (c :: (rest.take n ++ written following)) = _
      rw [scan_step again (level _) fit, taken, dropped, ih, emitted_of_apart joined, emitted_of_apart joined,
        List.singleton_append, placed, length]
      rfl
    | true =>
      -- The sign is read first, and then the lexeme where an operand is expected.
      obtain ⟨complete, noStar, same, fits⟩ := resolve_of_joins found joined
      rw [emitted_of_joins joined]
      rw [same] at level ih joined
      have sign : scan source' position' depth last ('*' :: c :: (rest.take n ++ written following)) = _ :=
        scan_operator (lexeme?_times (by simpa using noStar)) complete
      have token : scan source' (position' + 1) depth (some (.operator .times)) (c :: (rest.take n ++ written following)) = _ :=
        scan_step again (by rw [same]; exact level _) (by rw [same]; exact fits _)
      show scan source' position' depth last ('*' :: c :: (rest.take n ++ written following)) = _
      rw [sign, token, taken, dropped, emitted_of_apart (joins_of_expects rfl _)]
      simp only [same, ih, List.cons_append, List.nil_append, placed, length]
      rfl

end Reckoner.Token
