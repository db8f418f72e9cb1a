import Reckoner.Proofs.Expression.Outside
import Reckoner.Proofs.Token.Weight
/-!
# Cutting literals into terms

A literal is its terms put together again, and inside no term does a sign stand where terms are cut. The tokens of such a
text have no sum outside parentheses (`outside_of_uncut`).
-/

namespace Reckoner

open Text

namespace Poly

/-! ## Texts that are not cut -/

/-- No sign in a text is one between terms, where `depth` brackets are open and `last` is the last character before it. -/
def Uncut (depth : Int) (last : Char) : Text → Prop
  | [] => True
  | c :: rest => ((c = '+' ∨ c = '-') → depth = 0 → holdsSign last = true) ∧ Uncut (depthAfter depth c) c rest

variable {depth : Int} {last : Char} {s t body : Text} {terms : List SignedTerm}

theorem uncut_append : Uncut depth last (s ++ t) ↔
    Uncut depth last s ∧ Uncut (depth + weight s) (s.getLast?.getD last) t := by
  induction s generalizing depth last with
  | nil => simp [Uncut]
  | cons c s ih =>
    have level : depth + weight (c :: s) = depthAfter depth c + weight s := by
      rw [weight_cons, depthAfter_eq depth c]
      omega
    simp only [List.cons_append, Uncut, ih, level, List.getLast?_cons, Option.getD_some, and_assoc]

/-- A character that holds a sign more does not make a cut, and blanks may be left out. -/
theorem Uncut.squeeze {last' : Char} (h : Uncut depth last t) (holds : holdsSign last = true → holdsSign last' = true) :
    Uncut depth last' (Text.squeeze t) := by
  induction t generalizing depth last last' with
  | nil => trivial
  | cons c t ih =>
    obtain ⟨first, later⟩ := h
    cases blank : CharClass.isBlank c with
    | false =>
      rw [Text.squeeze, List.filter_cons_of_pos (by simp [blank])]
      exact ⟨fun sign level => holds (first sign level), ih later id⟩
    | true =>
      rw [Text.squeeze, List.filter_cons_of_neg (by simp [blank])]
      obtain ⟨level, holdsNone⟩ := depthAfter_of_class (q := CharClass.isBlank) (by decide) blank
      rw [depthAfter_eq, level, Int.add_zero] at later
      exact ih later fun held => by rw [holdsNone] at held; cases held

/-! ## Cutting -/

/-- A term that was cut off: a sign and what follows it up to the next cut. -/
def IsTerm (term : SignedTerm) : Prop := (term.1 = '+' ∨ term.1 = '-') ∧ Uncut 0 term.1 term.2

/-- Terms as they are written one after the other. -/
def written (terms : List SignedTerm) : Text := terms.flatMap fun term => term.1 :: term.2

@[simp] theorem written_cons (term : SignedTerm) (terms : List SignedTerm) :
    written (term :: terms) = term.1 :: term.2 ++ written terms := by
  simp [written]

theorem cutTerms_spec (h : cutTerms depth last t = (body, terms)) :
    t = body ++ written terms ∧ Uncut depth last body ∧ ∀ term ∈ terms, IsTerm term := by
  induction t generalizing depth last body terms with
  | nil =>
    cases h
    exact ⟨rfl, trivial, nofun⟩
  | cons c t ih =>
    rw [cutTerms] at h
    cases cut : cutTerms (depthAfter depth c) c t with
    | mk body' terms' =>
      obtain ⟨joined, uncut, each⟩ := ih cut
      simp only [cut] at h
      split at h
      next between =>
        cases h
        obtain ⟨sign, rfl, -⟩ := between
        have level : depthAfter 0 c = 0 := by rcases sign with rfl | rfl <;> rfl
        rw [level] at uncut
        exact ⟨by simp [joined], trivial, List.forall_mem_cons.2 ⟨⟨sign, uncut⟩, each⟩⟩
      next inside =>
        cases h
        refine ⟨by simp [joined], ⟨fun sign level => ?_, uncut⟩, each⟩
        by_contra loose
        exact inside ⟨sign, level, by simpa using loose⟩

/-- The terms of a literal make up the literal, but for the sign of the first one if it is a plus. -/
theorem signedTerms_spec (t : Text) : ∃ first terms, signedTerms t = first :: terms ∧
    (t = written (first :: terms) ∨ first.1 = '+' ∧ t = first.2 ++ written terms) ∧
      ∀ term ∈ first :: terms, IsTerm term := by
  have cut : ∀ sign rest, (sign = '+' ∨ sign = '-') → ∃ body terms, cutTerms 0 sign rest = (body, terms) ∧
      rest = body ++ written terms ∧ ∀ term ∈ (sign, body) :: terms, IsTerm term := by
    intro sign rest signed
    obtain ⟨joined, uncut, each⟩ := cutTerms_spec (rfl : cutTerms 0 sign rest = _)
    exact ⟨_, _, rfl, joined, List.forall_mem_cons.2 ⟨⟨signed, uncut⟩, each⟩⟩
  have plain : ∃ body terms, cutTerms 0 '+' t = (body, terms) ∧ t = body ++ written terms ∧
      ∀ term ∈ ('+', body) :: terms, IsTerm term := cut '+' t (.inl rfl)
  cases t with
  | nil =>
    obtain ⟨body, terms, run, joined, each⟩ := plain
    exact ⟨('+', body), terms, by simp [signedTerms, run], .inr ⟨rfl, joined⟩, each⟩
  | cons c rest =>
    by_cases sign : c = '+' ∨ c = '-'
    · obtain ⟨body, terms, run, joined, each⟩ := cut c rest sign
      exact ⟨(c, body), terms, by simp [signedTerms, sign, run], .inl (by simp [joined]), each⟩
    · obtain ⟨body, terms, run, joined, each⟩ := plain
      exact ⟨('+', body), terms, by simp [signedTerms, sign, run], .inr ⟨rfl, joined⟩, each⟩

/-! ## Closed texts -/

/-- A text that may stand between two signs: it is not cut, whatever stands before it, its brackets are closed, and a sign
after it is one between terms. -/
structure Closed (t : Text) : Prop where
  uncut : ∀ last, Uncut 0 last t
  weight : weight t = 0
  ends : ∃ c, t.getLast? = some c ∧ holdsSign c = false

theorem uncut_of_signless (h : ∀ c ∈ t, c ≠ '+' ∧ c ≠ '-') (depth : Int) (last : Char) : Uncut depth last t := by
  induction t generalizing depth last with
  | nil => trivial
  | cons c t ih =>
    obtain ⟨first, later⟩ := List.forall_mem_cons.1 h
    exact ⟨fun sign => absurd sign (not_or.2 first), ih later _ _⟩

namespace Closed

theorem of_signless (h : ∀ c ∈ t, c ≠ '+' ∧ c ≠ '-' ∧ depthAfter 0 c = 0) (ends : ∃ c, t.getLast? = some c ∧ holdsSign c = false) :
    Closed t where
  uncut := uncut_of_signless (fun c mem => ⟨(h c mem).1, (h c mem).2.1⟩) 0
  weight := weight_eq_zero fun c mem => (h c mem).2.2
  ends := ends

theorem ne_nil (h : Closed t) : t ≠ [] := by
  obtain ⟨c, last, -⟩ := h.ends
  rintro rfl
  cases last

/-- A sign at the start would be one between terms. -/
theorem head_ne_sign (h : Closed t) : ∀ c ∈ t.head?, ¬(c = '+' ∨ c = '-') := by
  intro c first sign
  obtain ⟨rest, rfl⟩ := List.head?_eq_some_iff.1 first
  have held := (h.uncut ' ').1 sign rfl
  exact absurd held (by decide)

/-- A closed text, an operator that is no sign, and a closed text. -/
theorem append (hs : Closed s) {c : Char} (sign : c ≠ '+' ∧ c ≠ '-') (level : depthAfter 0 c = 0) (ht : Closed t) :
    Closed (s ++ c :: t) where
  uncut last := by
    rw [uncut_append, hs.weight, Int.add_zero]
    refine ⟨hs.uncut last, fun written => absurd written (not_or.2 sign), ?_⟩
    rw [level]
    exact ht.uncut c
  weight := by rw [weight_append, weight_cons, hs.weight, ht.weight, level]; rfl
  ends := by
    obtain ⟨d, last, ends⟩ := ht.ends
    exact ⟨d, by simp [List.getLast?_cons, last], ends⟩

/-- What stands in brackets is closed if its own brackets are. -/
theorem enclosed {o c : Char} (opening : o = '(' ∨ o = '[') (closing : c = ')' ∨ c = ']') (uncut : Uncut 1 o s)
    (level : Text.weight s = 0) : Closed (o :: s ++ [c]) where
  uncut last := by
    have first : depthAfter 0 o = 1 := by rcases opening with rfl | rfl <;> rfl
    rw [List.cons_append]
    refine ⟨by rcases opening with rfl | rfl <;> simp, ?_⟩
    rw [first, uncut_append, level]
    exact ⟨uncut, by rcases closing with rfl | rfl <;> simp [Uncut]⟩
  weight := by
    rw [List.cons_append, weight_cons, weight_append, level]
    rcases opening with rfl | rfl <;> rcases closing with rfl | rfl <;> rfl
  ends := ⟨c, List.getLast?_concat, by rcases closing with rfl | rfl <;> rfl⟩

end Closed

/-- A text that is not cut is read on its own, and the rest after it. -/
theorem cutTerms_append (uncut : Uncut depth last s) (t : Text) : cutTerms depth last (s ++ t) =
    (s ++ (cutTerms (depth + weight s) (s.getLast?.getD last) t).1,
      (cutTerms (depth + weight s) (s.getLast?.getD last) t).2) := by
  induction s generalizing depth last with
  | nil => simp
  | cons c s ih =>
    have level : depth + weight (c :: s) = depthAfter depth c + weight s := by
      rw [weight_cons, depthAfter_eq depth c]
      omega
    have inside : ¬((c = '+' ∨ c = '-') ∧ depth = 0 ∧ (!holdsSign last) = true) := by
      rintro ⟨sign, outside, loose⟩
      simp [uncut.1 sign outside] at loose
    rw [List.cons_append, cutTerms, ih uncut.2, level, List.getLast?_cons]
    exact if_neg inside

/-- A closed text is cut off at the sign after it, and so is every closed text after a sign. -/
theorem cutTerms_closed (closed : Closed body)
    (each : ∀ term ∈ terms, (term.1 = '+' ∨ term.1 = '-') ∧ Closed term.2) (last : Char) :
    cutTerms 0 last (body ++ written terms) = (body, terms) := by
  induction terms generalizing body last with
  | nil =>
    rw [cutTerms_append (closed.uncut last)]
    simp [written, cutTerms]
  | cons term terms ih =>
    obtain ⟨⟨sign, first⟩, later⟩ := List.forall_mem_cons.1 each
    obtain ⟨c, final, loose⟩ := closed.ends
    have level : depthAfter 0 term.1 = 0 := by rcases sign with sign | sign <;> rw [sign] <;> rfl
    rw [cutTerms_append (closed.uncut last), closed.weight, final, written_cons, List.cons_append, Int.add_zero,
      Option.getD_some, cutTerms, level, ih first later]
    simp [sign, loose]

/-- The terms of a literal that is made up of closed texts. -/
theorem signedTerms_closed (closed : Closed body)
    (each : ∀ term ∈ terms, (term.1 = '+' ∨ term.1 = '-') ∧ Closed term.2) (negative : Bool) :
    signedTerms ((if negative then '-' :: body else body) ++ written terms) =
      (if negative then '-' else '+', body) :: terms := by
  cases negative with
  | true => simp [signedTerms, cutTerms_closed closed each]
  | false =>
    obtain ⟨c, rest, rfl⟩ := List.exists_cons_of_ne_nil closed.ne_nil
    have run := cutTerms_closed closed each '+'
    rw [List.cons_append] at run
    simp [signedTerms, closed.head_ne_sign c rfl, run]

end Poly

/-! ## Tokens of texts that are not cut -/

namespace Token

open Reckoner.Poly (Uncut holdsSign uncut_append)

variable {t : Text} {depth depth' : Nat} {last : Option Kind} {us : List Token}

theorem mem_outside_cons {tok : Token} {o : Operator} (nested : tok.kind.depthAfter? depth = some depth')
    (mem : o ∈ outside depth (tok :: us)) : o ∈ outside depth' us ∨ tok.kind = .operator o ∧ depth = 0 := by
  unfold outside at mem
  cases kind : tok.kind with
  | opening =>
    simp only [kind] at mem
    rw [kind] at nested
    cases nested
    exact .inl mem
  | closing =>
    simp only [kind] at mem
    rw [kind, Kind.depthAfter?] at nested
    split at nested
    · cases nested
    · cases nested
      exact .inl mem
  | operator o' =>
    simp only [kind] at mem
    rw [kind] at nested
    cases nested
    split at mem
    next closed =>
      rcases List.mem_cons.1 mem with rfl | mem
      · exact .inr ⟨rfl, closed⟩
      · exact .inl mem
    · exact .inl mem
  | _ =>
    simp only [kind] at mem
    rw [kind] at nested
    cases nested
    exact .inl mem

/-- The operators outside parentheses in what is put out for a token, and after it. -/
theorem mem_outside_emitted {tok : Token} {o : Operator} (nested : tok.kind.depthAfter? depth = some depth')
    (mem : o ∈ outside depth (emitted last tok ++ us)) :
    o ∈ outside depth' us ∨ o = .times ∨ tok.kind = .operator o ∧ depth = 0 := by
  unfold emitted at mem
  split at mem
  · rcases mem_outside_cons (show Kind.depthAfter? depth (.operator .times) = some depth from rfl) mem with mem | ⟨kind, -⟩
    · exact (mem_outside_cons nested mem).imp id .inr
    · cases kind
      exact .inr (.inl rfl)
  · exact (mem_outside_cons nested mem).imp id .inr

/-- The operator of a sum is written as its sign. -/
theorem Chunk.additive {form : Kind} {o : Operator} (h : Chunk form t) (kind : resolve last form = .operator o)
    (additive : o.additive = true) : t = ['+'] ∨ t = ['-'] := by
  cases h with
  | word | called | matrix | opening | closing => cases kind
  | sign which => exact which.imp (fun h => by rw [h.2]) fun h => by rw [h.2]
  | @operator o' t other =>
    cases o' with
    | plus | minus => cases other
    | _ =>
      cases kind
      cases additive

/-- After an operand or a closing parenthesis stands no character that would hold a sign. -/
theorem Chunk.complete {form : Kind} (h : Chunk form t) (complete : expectsOperand (some (resolve last form)) = false) :
    ∃ c, t.getLast? = some c ∧ holdsSign c = false := by
  cases h with
  | word nonempty all =>
    exact ⟨_, List.getLast?_eq_some_getLast nonempty, (depthAfter_of_isWord (all _ (List.getLast_mem nonempty))).2⟩
  | matrix bracket => exact ⟨']', bracket, rfl⟩
  | closing => exact ⟨')', rfl, rfl⟩
  | called | opening => cases complete
  | @sign o | @operator o =>
    cases o <;> simp only [resolve] at complete
    all_goals first | cases complete | (split at complete <;> cases complete)

/-- The tokens of a text that is not cut have no sum outside parentheses. -/
theorem outside_of_uncut {source : Text} {position depth : Nat} {last : Option Kind} {c : Char} {t : Text} {us : List Token}
    (h : scan source position depth last t = .ok us) (balanced : Balanced us) (uncut : Uncut depth c t)
    (complete : expectsOperand last = false → holdsSign c = false) : ∀ o ∈ outside depth us, o.additive = false := by
  match t with
  | [] =>
    obtain ⟨-, -, rfl⟩ := scan_nil_eq_ok h
    exact nofun
  | d :: s =>
    obtain ⟨form, n, depth', following, found, nested, fit, read, rfl⟩ := scan_cons_eq_ok h
    have chunk := chunk_of_lexeme? found
    obtain ⟨first, later⟩ := balanced.of_append
    have level : (depth : Int) + weight (d :: s.take n) = depth' := by
      refine chunk.weight (fun matrix => first _ (mem_emitted _ _) ?_) nested
      rw [matrix]
      rfl
    have split : d :: s = d :: s.take n ++ s.drop n := by rw [List.cons_append, List.take_append_drop]
    have sign := uncut.1
    rw [split, uncut_append, level] at uncut
    intro o mem
    rcases mem_outside_emitted nested mem with mem | rfl | ⟨kind, closed⟩
    · refine outside_of_uncut read later uncut.2 (fun ended => ?_) o mem
      obtain ⟨e, final, loose⟩ := chunk.complete ended
      rw [final]
      exact loose
    · rfl
    · -- A sum stands after an operand, so its sign would be cut.
      by_contra additive
      have additive : o.additive = true := by simpa using additive
      have after : expectsOperand last = false := by
        rw [show resolve last form = .operator o from kind] at fit
        simpa [fits] using fit
      have written : d = '+' ∨ d = '-' :=
        (chunk.additive kind additive).imp (fun eq => (List.cons.inj eq).1) fun eq => (List.cons.inj eq).1
      have held := sign written (by simp [closed])
      rw [complete after] at held
      cases held
termination_by t.length
decreasing_by simp only [List.length_drop, List.length_cons]; omega

end Token

end Reckoner
