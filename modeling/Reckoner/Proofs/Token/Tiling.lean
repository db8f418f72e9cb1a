import Reckoner.Proofs.Token.Rereading
/-!
# Tokens tile their text

Reading loses no character: the tokens of an expression stand one after the other in the text without its blanks, but for the
multiplication signs that were left out, each of which has the position of the operand after it. With these signs written out
the text is read as the same tokens (`tokenize_tiles`).
-/

namespace Reckoner.Token

variable {c : Char} {t source : Text} {form : Kind} {n position depth : Nat} {last : Option Kind} {ts : List Token}

/-- Whether a token is a multiplication sign that was left out of the text: no star stands at its position. -/
def leftOut (t : Text) (tok : Token) : Bool := tok.kind == .operator .times && t[tok.position]? != some '*'

/-- The tokens stand one after the other from `position` on, and make up the text there. -/
def Tiles : Nat → List Token → Text → Prop
  | _, [], t => t = []
  | position, tok :: ts, t =>
    tok.position = position ∧ tok.value ≠ [] ∧ ∃ rest, t = tok.value ++ rest ∧ Tiles (position + tok.value.length) ts rest

/-- Every sign that was left out is a star, right before an operand that has its position. -/
def SignsJoin (t : Text) (ts : List Token) : Prop :=
  ∀ sign after, sign :: after <:+ ts → leftOut t sign = true → sign.value = ['*'] ∧
    ∃ next ∈ after.head?, next.position = sign.position ∧ leftOut t next = false ∧ next.kind.beginsOperand = true

theorem Tiles.mem (h : Tiles position ts t) {tok : Token} (mem : tok ∈ ts) : ∀ d ∈ tok.value, d ∈ t := by
  induction ts generalizing position t with
  | nil => cases mem
  | cons first ts ih =>
    obtain ⟨-, -, rest, rfl, later⟩ := h
    intro d char
    rcases List.mem_cons.1 mem with rfl | mem
    · exact List.mem_append_left _ char
    · exact List.mem_append_right _ (ih later mem d char)

theorem signsJoin_nil (t : Text) : SignsJoin t [] := fun _ _ suffix => by
  cases List.suffix_nil.1 suffix

/-- A token that is in the text is followed by anything. -/
theorem SignsJoin.cons {tok : Token} (stands : leftOut t tok = false) (h : SignsJoin t ts) : SignsJoin t (tok :: ts) := by
  intro sign after suffix out
  rcases List.suffix_cons_iff.1 suffix with eq | suffix
  · cases eq
    rw [stands] at out
    cases out
  · exact h sign after suffix out

/-- A sign is followed by an operand at its position. -/
theorem SignsJoin.sign {tok : Token} (stands : leftOut t tok = false) (begins : tok.kind.beginsOperand = true)
    (h : SignsJoin t ts) : SignsJoin t (⟨.operator .times, ['*'], tok.position⟩ :: tok :: ts) := by
  intro sign after suffix out
  rcases List.suffix_cons_iff.1 suffix with eq | suffix
  · cases eq
    exact ⟨rfl, tok, rfl, rfl, stands, begins⟩
  · exact h.cons stands sign after suffix out

/-! ## Reading -/

theorem star_of_times {s : Text} (found : lexeme? c s = some (.operator .times, n)) : c = '*' := by
  obtain ⟨bracket, digit, letter⟩ := plain_of_mark found nofun nofun
  by_contra other
  rw [lexeme?_eq_mark bracket digit letter, if_neg other] at found
  obtain ⟨k, mark, eq⟩ := Option.map_eq_some_iff.1 found
  cases eq
  unfold mark? at mark
  split_ifs at mark <;> cases mark

/-- The token of a lexeme stands in the text, since a multiplication sign that does has its star there. -/
theorem leftOut_lexeme {before s : Text} (found : lexeme? c s = some (form, n)) (here : before.length = position) (last : Option Kind)
    (value : Text) : leftOut (before ++ c :: s) ⟨resolve last form, value, position⟩ = false := by
  subst here
  by_cases times : resolve last form = .operator .times
  · rw [resolve_eq times nofun nofun] at found
    simp [leftOut, star_of_times found]
  · simp [leftOut, times]

theorem scan_tiles (h : scan source position depth last t = .ok ts) : ∀ before : Text, before.length = position →
    Tiles position (ts.filter (!leftOut (before ++ t) ·)) t ∧ SignsJoin (before ++ t) ts := by
  refine scan_induction (motive := fun position _ _ t ts => ∀ before : Text, before.length = position →
    Tiles position (ts.filter (!leftOut (before ++ t) ·)) t ∧ SignsJoin (before ++ t) ts) ?_ ?_ h
  · intro position last complete before here
    exact ⟨rfl, signsJoin_nil _⟩
  · intro position depth last c rest form n depth' following found nested fit read ih before here
    -- A lexeme is never longer than the text, so that what is cut out and what is left make up the whole.
    obtain ⟨-, short⟩ := lexeme?_again found (mayFollow_written found read)
    have length : (c :: rest.take n).length = n + 1 := by simp [short]
    have whole : before ++ c :: rest.take n ++ rest.drop n = before ++ c :: rest := by simp
    obtain ⟨tiles, signs⟩ := ih (before ++ c :: rest.take n) (by rw [List.length_append, here, length, Nat.add_assoc])
    rw [whole] at tiles signs
    have stands := leftOut_lexeme found here last (c :: rest.take n)
    have first : Tiles position (⟨resolve last form, c :: rest.take n, position⟩ ::
        following.filter (!leftOut (before ++ c :: rest) ·)) (c :: rest) := by
      refine ⟨rfl, List.cons_ne_nil _ _, rest.drop n, by simp, ?_⟩
      rwa [length, ← Nat.add_assoc]
    cases joined : joins last (resolve last form) with
    | false =>
      rw [emitted_of_apart joined, List.singleton_append, List.filter_cons_of_pos (by simp [stands])]
      exact ⟨first, signs.cons stands⟩
    | true =>
      obtain ⟨-, noStar, same, -⟩ := resolve_of_joins found joined
      have out : leftOut (before ++ c :: rest) ⟨.operator .times, ['*'], position⟩ = true := by
        subst here
        simpa [leftOut] using noStar
      have begins : (resolve last form).beginsOperand = true := by
        unfold joins at joined
        split at joined <;> simp_all [Kind.beginsOperand]
      rw [emitted_of_joins joined, List.cons_append, List.singleton_append, List.filter_cons_of_neg (by simp [out]),
        List.filter_cons_of_pos (by simp [stands])]
      exact ⟨first, signs.sign stands begins⟩

/-! ## Expressions -/

theorem map_placed (position : Nat) (ts : List Token) :
    (placed position ts).map (fun tok => (tok.kind, tok.value)) = ts.map fun tok => (tok.kind, tok.value) := by
  induction ts generalizing position with
  | nil => rfl
  | cons tok ts ih => rw [placed, List.map_cons, List.map_cons, ih]

/-- What is written of tokens that tile a text is the text with stars. -/
theorem mem_written (tiles : Tiles position (ts.filter (!leftOut t ·)) t) (signs : SignsJoin t ts) {d : Char}
    (mem : d ∈ written ts) : d = '*' ∨ d ∈ t := by
  obtain ⟨tok, token, char⟩ := List.mem_flatMap.1 mem
  cases out : leftOut t tok with
  | false => exact .inr (tiles.mem (List.mem_filter.2 ⟨token, by simp [out]⟩) d char)
  | true =>
    obtain ⟨before, after, rfl⟩ := List.append_of_mem token
    rw [(signs tok after (List.suffix_append _ _) out).1] at char
    exact .inl (List.mem_singleton.1 char)

/-- What the tokens of a text without blanks are to the text. -/
structure Tiling (t : Text) (ts : List Token) : Prop where
  tiles : Tiles 0 (ts.filter (!leftOut t ·)) t
  signs : SignsJoin t ts
  again : ∀ source, ∃ us, tokenize (written ts) source = .ok us ∧
    us.map (fun tok => (tok.kind, tok.value)) = ts.map fun tok => (tok.kind, tok.value)

/-- The tokens of an expression, without the multiplication signs that were left out, tile the text without its blanks; each of
these signs has the position of the operand after it; and what is written of all the tokens is read as the same tokens. -/
theorem tokenize_tiles {expression : Text} (h : tokenize expression source = .ok ts) : Tiling (Text.squeeze expression) ts := by
  obtain ⟨nonempty, read⟩ := scan_of_tokenize h
  obtain ⟨tiles, signs⟩ := scan_tiles read [] rfl
  rw [List.nil_append] at tiles signs
  refine ⟨tiles, signs, fun source' => ⟨placed 0 ts, ?_, map_placed 0 ts⟩⟩
  have squeezed : Text.squeeze (written ts) = written ts := by
    refine List.filter_eq_self.2 fun d mem => ?_
    rcases mem_written tiles signs mem with rfl | char
    · decide
    · exact (List.mem_filter.1 char).2
  have filled : written ts ≠ [] := by
    intro empty
    have first := head?_written read rfl
    rw [empty] at first
    exact nonempty (List.head?_eq_none_iff.1 first.symm)
  rw [tokenize, squeezed, if_neg (by simpa using filled)]
  exact scan_written read source' 0

/-- The tokens of `2x[[1]](3)`, in front of whose last three operands a sign is left out. -/
def joinedOperands : List Token :=
  [⟨.operand .number, ['2'], 0⟩, ⟨.operator .times, ['*'], 1⟩, ⟨.operand .identifier, ['x'], 1⟩,
    ⟨.operator .times, ['*'], 2⟩, ⟨.operand .matrix, "[[1]]".toList, 2⟩, ⟨.operator .times, ['*'], 7⟩, ⟨.opening, ['('], 7⟩,
    ⟨.operand .number, ['3'], 8⟩, ⟨.closing, [')'], 9⟩]

theorem tokenize_tiles_joinedOperands : tokenize "2 x[[1]](3)".toList "2 x[[1]](3)".toList = .ok joinedOperands ∧
    Tiling (Text.squeeze "2 x[[1]](3)".toList) joinedOperands := by
  have read : tokenize "2 x[[1]](3)".toList "2 x[[1]](3)".toList = .ok joinedOperands := by decide +kernel
  exact ⟨read, tokenize_tiles read⟩

end Reckoner.Token
