import Reckoner.Line.Basic
import Reckoner.Proofs.Line.Names
/-!
# The names of a part

A name of a part of a text is a name of the text, unless a run of letters goes on beyond the part. The sides of an equals
sign, what stands before a mark at the end, and matrix literals are parts that cut no run. A call that is a whole part has its
name among the called names and its argument among the others.
-/

namespace Reckoner.Line

open CharClass

variable {before run rest after s t : Text}

/-! ## Runs of letters -/

theorem EndsRun.cons {c : Char} (noLetter : isPlainLetter c = false) (h : EndsRun t) : EndsRun (c :: t) := by
  have first : EndsRun [c] := by simpa [EndsRun] using noLetter
  exact first.append h

/-- A run that is found is a whole run of letters. -/
theorem exists_of_mem_letterRuns (h : (run, rest) ∈ letterRuns t) :
    ∃ before, t = before ++ (run ++ rest) ∧ run ≠ [] ∧ (∀ c ∈ run, isPlainLetter c = true) ∧ EndsRun before ∧
      BeginsRun rest := by
  fun_induction letterRuns t with
  | case1 => cases h
  | case2 c t letter ih =>
    obtain ⟨ls, ms, rfl, letters, stop⟩ := exists_letters t
    obtain ⟨taken, left⟩ := takeWhile_letters letters stop
    rw [taken, left] at h
    rw [left] at ih
    rcases List.mem_cons.1 h with first | later
    · cases first
      exact ⟨[], rfl, List.cons_ne_nil c ls, List.forall_mem_cons.2 ⟨letter, letters⟩, .nil, stop⟩
    · obtain ⟨front, rfl, nonempty, all, begins, ends⟩ := ih later
      refine ⟨c :: ls ++ front, by simp, nonempty, all, ?_, ends⟩
      -- A run does not begin where the one before it ends, so there is something between the two.
      cases front with
      | nil =>
        obtain ⟨d, ds, rfl⟩ := List.exists_cons_of_ne_nil nonempty
        have noLetter := stop d rfl
        rw [all d List.mem_cons_self] at noLetter
        cases noLetter
      | cons d front => exact begins.append_cons _
  | case3 c t noLetter ih =>
    obtain ⟨front, rfl, nonempty, all, begins, ends⟩ := ih h
    exact ⟨c :: front, rfl, nonempty, all, begins.cons (by simpa using noLetter), ends⟩

/-! ## Parts -/

/-- A name of a part is one of the text, unless letters on the two sides of an end of the part touch, or a parenthesis
follows the part. -/
theorem mem_names_of_part (split : Text.squeeze t = before ++ (Text.squeeze s ++ after))
    (begins : EndsRun before ∨ BeginsRun (Text.squeeze s))
    (ends : EndsRun (Text.squeeze s) ∨ BeginsRun after ∧ after.head? ≠ some '(') {name : Text × Bool}
    (h : name ∈ names s) : name ∈ names t := by
  obtain ⟨⟨run, rest⟩, found, rfl⟩ := List.mem_map.1 h
  obtain ⟨found, notUnit⟩ := List.mem_filter.1 found
  obtain ⟨front, whole, nonempty, letters, first, last⟩ := exists_of_mem_letterRuns found
  have starts : EndsRun (before ++ front) := by
    rcases begins with begins | begins
    · exact begins.append first
    · cases front with
      | nil =>
        obtain ⟨c, cs, rfl⟩ := List.exists_cons_of_ne_nil nonempty
        have noLetter := begins c (by rw [whole]; rfl)
        rw [letters c List.mem_cons_self] at noLetter
        cases noLetter
      | cons c front => exact first.append_cons before
  have stops : BeginsRun (rest ++ after) ∧ ((rest ++ after).head? == some '(') = (rest.head? == some '(') := by
    cases rest with
    | nil =>
      rcases ends with ends | ⟨ends, apart⟩
      · have noLetter := ends (run.getLast nonempty) (by
          rw [whole, List.append_nil, List.getLast?_append, List.getLast?_eq_some_getLast nonempty]
          rfl)
        rw [letters _ (List.getLast_mem nonempty)] at noLetter
        cases noLetter
      · exact ⟨ends, beq_false_of_ne apart⟩
    | cons c rest => exact ⟨last, rfl⟩
  have placed : Text.squeeze t = (before ++ front) ++ (run ++ (rest ++ after)) := by
    rw [split, whole]
    simp only [List.append_assoc]
  have named := mem_names placed nonempty letters (by simpa using notUnit) starts stops.1
  rwa [stops.2] at named

theorem Within.mem_names (h : Within s t) {name : Text × Bool} (mem : name ∈ names s) : name ∈ names t := by
  obtain ⟨before, after, split, begins, ends, apart⟩ := h
  exact mem_names_of_part split (.inl begins) (.inr ⟨ends, apart⟩) mem

/-- A part of a text without blanks has none. -/
theorem squeeze_of_part (split : Text.squeeze t = before ++ (s ++ after)) : Text.squeeze s = s := by
  refine List.filter_eq_self.2 fun c mem => ?_
  have inside : c ∈ Text.squeeze t := by
    rw [split]
    exact List.mem_append_right before (List.mem_append_left after mem)
  exact (List.mem_filter.1 inside).2

/-- A part that cuts no name, without blanks. -/
structure Part (s t : Text) : Prop where
  within : Within s t
  squeezed : Text.squeeze s = s

theorem Part.of_split (split : Text.squeeze t = before ++ (s ++ after)) (begins : EndsRun before)
    (ends : BeginsRun after) (apart : after.head? ≠ some '(') : Part s t where
  within := ⟨before, after, by rw [squeeze_of_part split, split], begins, ends, apart⟩
  squeezed := squeeze_of_part split

theorem Part.trans {u : Text} (hu : Part u s) (hs : Part s t) : Part u t := ⟨hu.within.trans hs.within, hu.squeezed⟩

/-- A line without its blanks. -/
theorem part_squeeze (t : Text) : Part (Text.squeeze t) t := by
  have placed : Text.squeeze t = [] ++ (Text.squeeze t ++ []) := (List.append_nil _).symm
  exact .of_split placed nofun nofun nofun

/-- What stands before a mark at the end. -/
theorem Part.chop? {mark : Char} {body : Text} (h : Part s t) (noLetter : isPlainLetter mark = false)
    (noParen : mark ≠ '(') (chopped : Text.chop? mark s = some body) : Part body t := by
  unfold Text.chop? at chopped
  split at chopped
  next last =>
    cases chopped
    obtain ⟨front, rfl⟩ := List.getLast?_eq_some_iff.1 last
    rw [List.dropLast_concat]
    have placed : Text.squeeze (front ++ [mark]) = [] ++ (front ++ [mark]) := h.squeezed
    refine (Part.of_split placed .nil ?_ (by simpa using noParen)).trans h
    simpa [BeginsRun] using noLetter
  · cases chopped

/-- There are two sides just if there is one equals sign. -/
theorem sides_eq_ok {left right source : Text} :
    sides t source = .ok (left, right) ↔ t = left ++ '=' :: right ∧ '=' ∉ left ∧ '=' ∉ right := by
  constructor
  · intro cut
    unfold sides at cut
    split at cut
    next l r pieces =>
      cases cut
      have whole : ['='].intercalate (t.splitOn '=') = t := List.intercalate_splitOn '='
      rw [pieces] at whole
      have joined : t = left ++ '=' :: right := by simp [← whole]
      have first : ∀ {as : Text} (bs : Text), '=' ∉ as → (as ++ '=' :: bs).splitOn '=' = as :: bs.splitOn '=' := by
        intro as bs absent
        refine List.splitOnP_append_cons_of_forall_mem (fun c mem => beq_false_of_ne ?_) '=' rfl bs
        rintro rfl
        exact absent mem
      -- The text is cut at its first equals sign, and then once more if the rest has one.
      obtain ⟨as, bs, split, absent⟩ := List.eq_append_cons_of_mem (show '=' ∈ t by simp [joined])
      rw [split, first bs absent] at pieces
      obtain ⟨rfl, later⟩ := List.cons.inj pieces
      refine ⟨joined, absent, fun mem => ?_⟩
      obtain rfl : bs = right := (List.cons.inj (List.append_cancel_left (split.symm.trans joined))).2
      obtain ⟨cs, ds, rfl, absent'⟩ := List.eq_append_cons_of_mem mem
      rw [first ds absent'] at later
      exact List.splitOnP_ne_nil _ ds (List.cons.inj later).2
    · cases cut
  · rintro ⟨rfl, absent, absent'⟩
    have pieces : (left ++ '=' :: right).splitOn '=' = [left, right] := by
      have cut : (['='].intercalate [left, right]).splitOn '=' = [left, right] :=
        List.splitOn_intercalate '=' (by simp [absent, absent']) (by simp)
      simpa using cut
    rw [sides, pieces]

/-- The two sides of the equals sign. -/
theorem Part.sides {left right source : Text} (h : Part s t) (cut : Line.sides s source = .ok (left, right)) :
    Part left t ∧ Part right t := by
  obtain ⟨joined, -, -⟩ := sides_eq_ok.1 cut
  have equals : isPlainLetter '=' = false := by decide
  constructor
  · have placed : Text.squeeze s = [] ++ (left ++ '=' :: right) := h.squeezed.trans joined
    refine (Part.of_split placed .nil ?_ (by simp)).trans h
    simpa [BeginsRun] using equals
  · have placed : Text.squeeze s = (left ++ ['=']) ++ (right ++ []) := h.squeezed.trans (by simp [joined])
    refine (Part.of_split placed ?_ (by simp [BeginsRun]) (by simp)).trans h
    simpa [EndsRun] using equals

/-! ### Calls -/

theorem header?_eq_some {name argument : Text} (h : header? t = some (name, argument)) :
    ∃ tail, t = name ++ '(' :: (argument ++ ')' :: tail) ∧ name ≠ [] ∧ argument ≠ [] ∧
      (∀ c ∈ name, isPlainLetter c = true) ∧ ∀ c ∈ argument, isPlainLetter c = true := by
  obtain ⟨ls, ms, rfl, letters, stop⟩ := exists_letters t
  simp only [header?, takeWhile_letters letters stop] at h
  split at h
  next rest =>
    obtain ⟨as, bs, rfl, letters', stop'⟩ := exists_letters rest
    simp only [takeWhile_letters letters' stop'] at h
    split at h
    · cases h
    next complete =>
      cases h
      simp only [Bool.or_eq_true, List.isEmpty_iff, Bool.not_eq_true', Bool.or_eq_false_iff, not_or, not_and,
        beq_eq_false_iff_ne, ne_eq, not_not] at complete
      obtain ⟨⟨named, given⟩, closed⟩ := complete
      refine ⟨bs.tail, ?_, named, given, letters, letters'⟩
      by_cases alone : bs = [')']
      · rw [alone]
        rfl
      · rw [closed alone]
        rfl
  · cases h

/-- The name of a call is called, and its argument is not, unless they are the imaginary unit. -/
theorem mem_names_of_header? {name argument : Text} (squeezed : Text.squeeze t = t)
    (h : header? t = some (name, argument)) :
    (isUnit name = false → name ∈ functionNames t) ∧ (isUnit argument = false → argument ∈ variableNames t) := by
  obtain ⟨tail, split, named, given, letters, letters'⟩ := header?_eq_some h
  have opening : isPlainLetter '(' = false := by decide
  have closing : isPlainLetter ')' = false := by decide
  constructor
  · intro notUnit
    rw [mem_functionNames]
    have placed : Text.squeeze t = [] ++ (name ++ '(' :: (argument ++ ')' :: tail)) := squeezed.trans split
    exact mem_names placed named letters notUnit .nil (by simpa [BeginsRun] using opening)
  · intro notUnit
    rw [mem_variableNames]
    have placed : Text.squeeze t = (name ++ ['(']) ++ (argument ++ ')' :: tail) := by
      rw [squeezed, split]
      simp
    exact mem_names placed given letters' notUnit (by simpa [EndsRun] using opening)
      (by simpa [BeginsRun] using closing)

/-! ### Matrix literals -/

/-- The names of a matrix literal are names of the text that it stands in. -/
theorem mem_names_of_literal {source : Text} {ts : List Token} {tok : Token} (h : Token.tokenize t source = .ok ts)
    (mem : tok ∈ ts) (kind : tok.kind = .operand .matrix) {name : Text × Bool} (found : name ∈ names tok.value) :
    name ∈ names t := by
  obtain ⟨before, c, rest, n, split, lexeme, -, value⟩ := Token.lexeme_of_token h mem kind ⟨nofun, nofun, nofun⟩
  cases lexeme with
  | mark _ _ notOperand _ => exact absurd rfl (notOperand _)
  | matrix bracket closed =>
    subst bracket
    have placed : Text.squeeze t = before ++ (tok.value ++ rest.drop n) := by
      rw [split, value, List.cons_append, List.take_append_drop]
    have squeezed := squeeze_of_part placed
    refine mem_names_of_part (by rw [squeezed, placed]) (.inr ?_) (.inl ?_) found
    · rw [squeezed, value]
      have opening : isPlainLetter '[' = false := by decide
      simpa [BeginsRun] using opening
    · have closing : isPlainLetter ']' = false := by decide
      have last : tok.value.getLast? = some ']' := by
        rw [value, List.getLast?_cons, Token.getLast?_of_closingBracket? closed]
        rfl
      simpa [squeezed, EndsRun, last] using closing

end Reckoner.Line
