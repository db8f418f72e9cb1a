import Reckoner.Poly.Literal
import Reckoner.Proofs.Expression.Grammar
import Reckoner.Proofs.Token.Joining
/-!
# The weight of brackets

Opening brackets and parentheses less the closing ones. A text that is read opens as many as it closes, if the matrix
literals in it do (`scan_weight`).
-/

namespace Reckoner

open CharClass
open Reckoner.Poly (depthAfter holdsSign)

/-- How many more brackets and parentheses a text opens than it closes. -/
def Text.weight : Text → Int
  | [] => 0
  | c :: t => depthAfter 0 c + weight t

namespace Text

theorem depthAfter_eq (depth : Int) (c : Char) : depthAfter depth c = depth + depthAfter 0 c := by
  unfold depthAfter
  split
  · omega
  · split <;> omega

@[simp] theorem weight_nil : weight [] = 0 := rfl

@[simp] theorem weight_cons (c : Char) (t : Text) : weight (c :: t) = depthAfter 0 c + weight t := rfl

@[simp] theorem weight_append (s t : Text) : weight (s ++ t) = weight s + weight t := by
  induction s with
  | nil => simp
  | cons c s ih => simp [ih, Int.add_assoc]

theorem weight_eq_zero {t : Text} (h : ∀ c ∈ t, depthAfter 0 c = 0) : weight t = 0 := by
  induction t with
  | nil => rfl
  | cons c t ih =>
    obtain ⟨first, later⟩ := List.forall_mem_cons.1 h
    rw [weight_cons, first, ih later]
    rfl

/-- Characters that are no brackets may be left out. -/
theorem weight_filter {p : Char → Bool} (h : ∀ c, p c = false → depthAfter 0 c = 0) (t : Text) :
    weight (t.filter p) = weight t := by
  induction t with
  | nil => rfl
  | cons c t ih =>
    cases kept : p c with
    | false => simp [kept, ih, h c kept]
    | true => simp [kept, ih]

/-- The characters of a class without brackets and operators open and close nothing, and a sign after one of them stands
between terms. -/
theorem depthAfter_of_class {q : Char → Bool}
    (none : ['(', '[', ')', ']', '^', '*', '/', '+', '-'].all (!q ·) = true) {c : Char} (member : q c = true) :
    depthAfter 0 c = 0 ∧ holdsSign c = false := by
  have other : ∀ d ∈ ['(', '[', ')', ']', '^', '*', '/', '+', '-'], c ≠ d := by
    rintro d mem rfl
    simpa [member] using List.all_eq_true.1 none c mem
  simp only [List.mem_cons, List.not_mem_nil, or_false, forall_eq_or_imp, forall_eq] at other
  constructor
  · simp [depthAfter, other]
  · simp [holdsSign, other]

theorem weight_squeeze (t : Text) : weight (squeeze t) = weight t :=
  weight_filter (fun c blank => (depthAfter_of_class (q := isBlank) (by decide) (by simpa using blank)).1) t

theorem weight_withoutSpaces (t : Text) : weight (withoutSpaces t) = weight t := by
  refine weight_filter (fun c space => ?_) t
  obtain rfl : c = ' ' := by simpa using space
  rfl

/-! ## Characters of words -/

/-- The characters of numbers and names. -/
def isWord (c : Char) : Bool := isDigit c || isPlainLetter c || c == '.'

theorem depthAfter_of_isWord {c : Char} (word : isWord c = true) : depthAfter 0 c = 0 ∧ holdsSign c = false :=
  depthAfter_of_class (by decide) word

theorem isBlank_of_isWord {c : Char} (word : isWord c = true) : isBlank c = false := by
  have none : ∀ r ∈ blankRanges, ∀ k ∈ List.range' r.1 (r.2 + 1 - r.1), isWord (Char.ofNat k) = false := by decide
  by_contra blank
  obtain ⟨r, mem, inside⟩ := List.any_eq_true.1 (Bool.not_eq_false _ ▸ blank : isBlank c = true)
  simp only [Bool.and_eq_true, decide_eq_true_eq] at inside
  have other := none r mem c.toNat (by rw [List.mem_range'_1]; omega)
  rw [Char.ofNat_toNat, word] at other
  cases other

end Text

namespace Token

open Text Line

variable {c : Char} {s : Text} {form : Kind} {n : Nat}

/-! ## The characters of lexemes -/

/-- How lexemes are written: operands and called names as words, a matrix literal up to a bracket, and operators with
characters that are no brackets. -/
inductive Chunk : Kind → Text → Prop where
  | word {o t} : t ≠ [] → (∀ d ∈ t, isWord d = true) → Chunk (.operand o) t
  | matrix {t} : t.getLast? = some ']' → Chunk (.operand .matrix) t
  | called {t} : (∀ d ∈ t, isWord d = true) → Chunk .function t
  | sign {o c} : (o = .plus ∧ c = '+' ∨ o = .minus ∧ c = '-') → Chunk (.operator o) [c]
  | operator {o t} : o.additive = false → (∀ d ∈ t, depthAfter 0 d = 0) → Chunk (.operator o) t
  | opening : Chunk .opening ['(']
  | closing : Chunk .closing [')']

theorem isWord_of_letter {d : Char} (letter : isPlainLetter d = true) : isWord d = true := by
  simp [isWord, letter]

theorem isWord_number (t : Text) : ∀ d ∈ t.take (numberLength t), isWord d = true := by
  intro d mem
  rcases numberLength_characters t d mem with digit | rfl
  · simp [isWord, digit]
  · decide

theorem letter_of_unitAhead (ahead : unitAhead (c :: s) = true) : isPlainLetter c = true := by
  simp only [unitAhead, Bool.and_eq_true, Bool.or_eq_true, beq_iff_eq] at ahead
  rcases ahead.1 with rfl | rfl <;> decide

/-- What is no operand and no name is a sign, a parenthesis or an operator. -/
theorem chunk_of_mark (h : lexeme? c s = some (form, n)) (noOperand : ∀ o, form ≠ .operand o) (noCall : form ≠ .function) :
    Chunk form (c :: s.take n) := by
  unfold lexeme? at h
  rcases ite_eq_iff.1 h with ⟨-, h⟩ | ⟨-, h⟩
  · obtain ⟨m, -, eq⟩ := Option.map_eq_some_iff.1 h
    cases eq
    exact absurd rfl (noOperand _)
  rcases ite_eq_iff.1 h with ⟨-, h⟩ | ⟨-, h⟩
  · rcases ite_eq_iff.1 (Option.some.inj h) with ⟨-, h⟩ | ⟨-, h⟩ <;> cases h <;> exact absurd rfl (noOperand _)
  rcases ite_eq_iff.1 h with ⟨-, h⟩ | ⟨-, h⟩
  · cases h
    exact absurd rfl (noOperand _)
  rcases ite_eq_iff.1 h with ⟨-, h⟩ | ⟨-, h⟩
  · rcases ite_eq_iff.1 (Option.some.inj h) with ⟨-, h⟩ | ⟨-, h⟩ <;> cases h
    · exact absurd rfl noCall
    · exact absurd rfl (noOperand _)
  have single : ∀ {o d}, Operator.additive o = false → depthAfter 0 d = 0 → Chunk (.operator o) [d] := fun other level =>
    .operator other (List.forall_mem_singleton.2 level)
  rcases ite_eq_iff.1 h with ⟨rfl, h⟩ | ⟨-, h⟩
  · rcases ite_eq_iff.1 (Option.some.inj h) with ⟨second, h⟩ | ⟨-, h⟩
    · obtain ⟨tail, rfl⟩ := List.head?_eq_some_iff.1 second
      cases h
      exact .operator rfl (List.forall_mem_cons.2 ⟨rfl, List.forall_mem_singleton.2 rfl⟩)
    · cases h
      exact single rfl rfl
  iterate 7
    rcases ite_eq_iff.1 h with ⟨rfl, h⟩ | ⟨-, h⟩
    · cases h
      first
      | exact .opening
      | exact .closing
      | exact .sign (.inl ⟨rfl, rfl⟩)
      | exact .sign (.inr ⟨rfl, rfl⟩)
      | exact single rfl rfl
  cases h

theorem chunk_of_lexeme? (h : lexeme? c s = some (form, n)) : Chunk form (c :: s.take n) := by
  cases lexeme_of_lexeme? h with
  | matrix _ closing =>
    refine .matrix ?_
    rw [List.getLast?_cons, getLast?_of_closingBracket? closing]
    rfl
  | imaginary digit ahead =>
    -- The unit stands after the number.
    cases tail : (c :: s).drop (numberLength (c :: s)) with
    | nil =>
      rw [tail] at ahead
      cases ahead
    | cons u more =>
      rw [tail] at ahead
      have next : (c :: s)[numberLength (c :: s)]? = some u := by rw [← List.head?_drop, tail, List.head?_cons]
      refine .word (List.cons_ne_nil _ _) ?_
      rw [← List.take_succ_cons, List.take_add_one, next]
      exact List.forall_mem_append.2
        ⟨isWord_number _, List.forall_mem_singleton.2 (isWord_of_letter (letter_of_unitAhead ahead))⟩
  | number digit =>
    refine .word (List.cons_ne_nil _ _) ?_
    rw [← List.take_succ_cons, Nat.sub_add_cancel (numberLength_pos digit s)]
    exact isWord_number _
  | unit ahead => exact .word (List.cons_ne_nil _ _) (by simp [isWord_of_letter (letter_of_unitAhead ahead)])
  | called split letters =>
    refine .called ?_
    rw [split, List.take_left]
    exact fun d mem => isWord_of_letter (letters d mem)
  | name split letters =>
    refine .word (List.cons_ne_nil _ _) ?_
    rw [split, List.take_left]
    exact fun d mem => isWord_of_letter (letters d mem)
  | mark _ _ noOperand noCall => exact chunk_of_mark h noOperand noCall

/-! ## Reading -/

variable {source t : Text} {position depth depth' : Nat} {last : Option Kind} {us : List Token}

/-- The matrix literals among tokens open as many brackets as they close. -/
def Balanced (us : List Token) : Prop := ∀ u ∈ us, u.kind = .operand .matrix → weight u.value = 0

theorem Balanced.of_append {vs : List Token} (h : Balanced (us ++ vs)) : Balanced us ∧ Balanced vs :=
  ⟨fun u mem => h u (List.mem_append_left _ mem), fun u mem => h u (List.mem_append_right _ mem)⟩

/-- A lexeme changes the depth by its weight. -/
theorem Chunk.weight (h : Chunk form t) (balanced : form = .operand .matrix → Text.weight t = 0)
    (nested : (resolve last form).depthAfter? depth = some depth') : (depth : Int) + Text.weight t = depth' := by
  cases h with
  | word _ all =>
    cases nested
    rw [weight_eq_zero fun d mem => (depthAfter_of_isWord (all d mem)).1, Int.add_zero]
  | called all =>
    cases nested
    rw [weight_eq_zero fun d mem => (depthAfter_of_isWord (all d mem)).1, Int.add_zero]
  | matrix =>
    cases nested
    rw [balanced rfl, Int.add_zero]
  | sign which =>
    rcases which with ⟨rfl, rfl⟩ | ⟨rfl, rfl⟩
    · cases nested
      rfl
    · simp only [resolve] at nested
      split at nested <;> cases nested <;> rfl
  | @operator o _ other level =>
    cases o with
    | plus | minus => cases other
    | _ =>
      cases nested
      rw [weight_eq_zero level, Int.add_zero]
  | opening =>
    cases nested
    rfl
  | closing =>
    simp only [resolve, Kind.depthAfter?] at nested
    split at nested
    · cases nested
    · cases nested
      simp [depthAfter]
      omega

/-- A text that is read inside some open parentheses closes these. -/
theorem scan_weight {source : Text} {position depth : Nat} {last : Option Kind} {t : Text} {us : List Token}
    (h : scan source position depth last t = .ok us) (balanced : Balanced us) : (depth : Int) + Text.weight t = 0 := by
  match t with
  | [] =>
    obtain ⟨rfl, -, -⟩ := scan_nil_eq_ok h
    rfl
  | c :: s =>
    obtain ⟨form, n, depth', following, found, nested, -, read, rfl⟩ := scan_cons_eq_ok h
    obtain ⟨first, later⟩ := balanced.of_append
    have level := (chunk_of_lexeme? found).weight (fun matrix => ?_) nested
    · have rest := scan_weight read later
      have whole : Text.weight (c :: s) = Text.weight (c :: s.take n) + Text.weight (s.drop n) := by
        rw [← weight_append, List.cons_append, List.take_append_drop]
      omega
    · refine first _ (mem_emitted _ _) ?_
      rw [matrix]
      rfl
termination_by t.length
decreasing_by simp only [List.length_drop, List.length_cons]; omega

end Token

end Reckoner
