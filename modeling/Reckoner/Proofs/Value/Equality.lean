import Reckoner.Datum.Comparison
import Reckoner.Proofs.Value.Action
import Reckoner.Proofs.Value.Exactness
/-!
# Equality

Two values are equal exactly if their simplest kinds are the same value: a complex number that is real goes by its real
part, a constant polynomial by its constant, whatever its variable is.

Main statement: among integers, truth values and values equality has an answer, and it is reflexive, symmetric and
transitive. Equal data has one hash, however plain data is hashed, so that a key is found wherever an equal one is stored:
dropping repetitions from a list by way of hashes keeps the first of each class of equal data and nothing else.
-/

namespace Reckoner

/-! ## Values -/

namespace Value

variable {v w : Value} {p q : Poly} {a b c d : Coeff}

theorem toValue_inj : c.toValue = d.toValue ↔ c = d := by
  refine ⟨fun same => ?_, congrArg Coeff.toValue⟩
  rw [← Option.some_inj, ← toCoeff?_toValue, same, toCoeff?_toValue]

theorem toValue_ne_polynomial : c.toValue ≠ .polynomial p := by
  intro same
  have none := toCoeff?_toValue c
  rw [same] at none
  cases none

theorem simplify_of_toCoeff? (h : v.toCoeff? = some a) : v.simplify = a.toValue := by
  obtain ⟨x, rfl, rfl⟩ | ⟨m, rfl, rfl⟩ := toCoeff?_eq_some h <;> rfl

theorem simplify_of_isConstant (h : p.isConstant = true) :
    (polynomial p).simplify = (p.coefficient 0).toValue := if_pos h

theorem simplify_of_varies (h : p.isConstant = false) : (polynomial p).simplify = .polynomial p :=
  if_neg (Bool.eq_false_iff.1 h)

theorem same_iff_of_toCoeff? (hv : v.toCoeff? = some a) (hw : w.toCoeff? = some b) :
    v.same w = true ↔ a = b := by
  obtain ⟨x, rfl, rfl⟩ | ⟨m, rfl, rfl⟩ := toCoeff?_eq_some hv <;>
    obtain ⟨y, rfl, rfl⟩ | ⟨n, rfl, rfl⟩ := toCoeff?_eq_some hw
  · rw [same, Number.same, beq_iff_eq, Coeff.scalar.injEq]
  · exact iff_of_false (by rintro ⟨⟩) (by rintro ⟨⟩)
  · exact iff_of_false (by rintro ⟨⟩) (by rintro ⟨⟩)
  · rw [same, beq_iff_eq, Coeff.matrix.injEq]

/-- Number or matrix and polynomial compare alike in either order. -/
theorem same_polynomial (h : v.toCoeff? = some a) (p : Poly) :
    (polynomial p).same v = (p.isConstant && p.coefficient 0 == a) ∧
      v.same (.polynomial p) = (p.isConstant && p.coefficient 0 == a) := by
  obtain ⟨x, rfl, rfl⟩ | ⟨m, rfl, rfl⟩ := toCoeff?_eq_some h <;> exact ⟨rfl, rfl⟩

theorem polynomial_same_iff (h : v.toCoeff? = some a) :
    (p.isConstant && p.coefficient 0 == a) = true ↔ (polynomial p).simplify = v.simplify := by
  rw [simplify_of_toCoeff? h]
  cases constant : p.isConstant with
  | true => rw [simplify_of_isConstant constant, toValue_inj, Bool.true_and, beq_iff_eq]
  | false =>
    rw [simplify_of_varies constant, Bool.false_and]
    exact ⟨nofun, fun same => absurd same.symm toValue_ne_polynomial⟩

theorem polynomials_same_iff :
    (polynomial p).same (.polynomial q) = true ↔ (polynomial p).simplify = (polynomial q).simplify := by
  have itself : (p.var == q.var && p.terms == q.terms) = true ↔ p = q := by
    rw [Bool.and_eq_true, beq_iff_eq, beq_iff_eq]
    exact ⟨fun ⟨var, terms⟩ => Poly.ext_terms var terms, by rintro rfl; exact ⟨rfl, rfl⟩⟩
  have varying (apart : (p.isConstant && q.isConstant) = false) :
      (polynomial p).same (.polynomial q) = true ↔ p = q := by rw [same, apart, if_neg Bool.false_ne_true, itself]
  cases first : p.isConstant <;> cases second : q.isConstant
  case true.true =>
    rw [same, first, second, Bool.and_self, if_pos rfl, beq_iff_eq, simplify_of_isConstant first,
      simplify_of_isConstant second, toValue_inj]
  all_goals refine (varying (by rw [first, second]; rfl)).trans ⟨congrArg fun r => (polynomial r).simplify, fun same => ?_⟩
  case false.false =>
    rw [simplify_of_varies first, simplify_of_varies second] at same
    exact polynomial.inj same
  case false.true =>
    rw [simplify_of_varies first, simplify_of_isConstant second] at same
    exact absurd same.symm toValue_ne_polynomial
  case true.false =>
    rw [simplify_of_isConstant first, simplify_of_varies second] at same
    exact absurd same toValue_ne_polynomial

/-- Values are equal exactly if they are the same in their simplest kinds. -/
theorem same_iff : v.same w = true ↔ v.simplify = w.simplify := by
  rcases v.toCoeff?_or_polynomial with ⟨a, ha⟩ | ⟨p, rfl⟩ <;> rcases w.toCoeff?_or_polynomial with ⟨b, hb⟩ | ⟨q, rfl⟩
  · rw [same_iff_of_toCoeff? ha hb, simplify_of_toCoeff? ha, simplify_of_toCoeff? hb, toValue_inj]
  · rw [(same_polynomial ha q).2, polynomial_same_iff ha, eq_comm]
  · rw [(same_polynomial hb p).1, polynomial_same_iff hb]
  · exact polynomials_same_iff

end Value

/-! ## Hashes -/

namespace Hashing

variable (H : Hashing)

theorem number_eq (x : Number) : H.number x = H.gaussian x.toGaussian := by
  cases x with
  | rational q => exact (if_pos rfl).symm
  | complex z => rfl

theorem number_ofGaussian (z : Gaussian) : H.number (.ofGaussian z) = H.gaussian z := by
  rw [number_eq, Number.toGaussian_ofGaussian]

theorem value_toValue (c : Coeff) : H.value c.toValue = H.coefficient c := by
  cases c with
  | scalar z => exact H.number_ofGaussian z
  | matrix m => rfl

/-- A value has the hash of its simplest kind. -/
theorem value_simplify (v : Value) : H.value v.simplify = H.value v := by
  cases v with
  | number x => exact (H.number_ofGaussian x.toGaussian).trans (H.number_eq x).symm
  | matrix m => rfl
  | polynomial p =>
    cases constant : p.isConstant with
    | true =>
      rw [Value.simplify_of_isConstant constant, value_toValue]
      exact (if_pos constant).symm
    | false => rw [Value.simplify_of_varies constant]

theorem rational_intCast (i : Int) : H.rational i = H.integer i := by
  rw [rational, Rat.den_intCast, Rat.num_intCast, if_pos rfl]

theorem datum_of_operand? {d : Datum} {v : Value} (h : d.operand? = some v) : H.datum d = H.value v := by
  cases d with
  | truth b =>
    cases h
    cases b
    · exact (H.rational_intCast 0).symm
    · exact (H.rational_intCast 1).symm
  | integer i =>
    cases h
    exact (H.rational_intCast i).symm
  | value w =>
    cases h
    rfl
  | _ => cases h

end Hashing

/-! ## Lists without repetitions -/

namespace Lists

variable {α β : Type} {f : α → β} {as kept : List α} {a : α}

/-- Of each class of items that `f` does not tell apart, the list keeps the first one, and it keeps nothing else. -/
structure KeepsFirsts (f : α → β) (as kept : List α) : Prop where
  sublist : kept.Sublist as
  apart : kept.Pairwise fun k l => f k ≠ f l
  first : ∀ a ∈ as, ∃ before k after, as = before ++ k :: after ∧ k ∈ kept ∧ f k = f a ∧ ∀ b ∈ before, f b ≠ f a

namespace KeepsFirsts

theorem nil : KeepsFirsts f [] [] := ⟨.slnil, .nil, by simp⟩

/-- One item more of a class that is there already. -/
theorem skip (h : KeepsFirsts f as kept) {k : α} (present : k ∈ kept) (same : f k = f a) :
    KeepsFirsts f (as ++ [a]) kept := by
  refine ⟨h.sublist.trans (List.sublist_append_left as [a]), h.apart, fun b mem => ?_⟩
  have earlier : ∃ c ∈ as, f c = f b := by
    rcases List.mem_append.1 mem with mem | mem
    · exact ⟨b, mem, rfl⟩
    · rw [List.mem_singleton.1 mem]
      exact ⟨k, h.sublist.subset present, same⟩
  obtain ⟨c, mem, alike⟩ := earlier
  obtain ⟨before, l, after, rfl, kept, equal, new⟩ := h.first c mem
  exact ⟨before, l, after ++ [a], by simp, kept, equal.trans alike, by rwa [← alike]⟩

/-- One item more of a new class. -/
theorem take (h : KeepsFirsts f as kept) (fresh : ∀ k ∈ kept, f k ≠ f a) :
    KeepsFirsts f (as ++ [a]) (kept ++ [a]) := by
  refine ⟨h.sublist.append (List.Sublist.refl [a]), ?_, fun b mem => ?_⟩
  · rw [List.pairwise_append]
    exact ⟨h.apart, List.pairwise_singleton _ _, by simpa using fresh⟩
  rcases List.mem_append.1 mem with mem | mem
  · obtain ⟨before, k, after, rfl, kept, equal, new⟩ := h.first b mem
    exact ⟨before, k, after ++ [a], by simp, List.mem_append_left _ kept, equal, new⟩
  · obtain rfl := List.mem_singleton.1 mem
    refine ⟨as, b, [], rfl, by simp, rfl, fun c mem same => ?_⟩
    obtain ⟨-, k, -, -, kept, equal, -⟩ := h.first c mem
    exact fresh k kept (equal.trans same)

end KeepsFirsts

end Lists

/-! ## Data -/

namespace Datum

variable {a b d : Datum}

/-- Integers, truth values and values: data that an operation takes as a value. -/
def IsOperand (d : Datum) : Prop := d.operand?.isSome = true

/-- The simplest value that data stands for. -/
def simplest? (d : Datum) : Option Value := d.operand?.map Value.simplify

theorem same_eq (ha : a.IsOperand) (hb : b.IsOperand) : a.same b = .ok (decide (a.simplest? = b.simplest?)) := by
  obtain ⟨v, hv⟩ := Option.isSome_iff_exists.1 ha
  obtain ⟨w, hw⟩ := Option.isSome_iff_exists.1 hb
  have values : v.same w = true ↔ a.simplest? = b.simplest? := by
    rw [simplest?, simplest?, hv, hw, Option.map_some, Option.map_some, Option.some_inj, Value.same_iff]
  rw [same_of_operands hv hw]
  exact congrArg Except.ok (Bool.eq_iff_iff.2 (values.trans decide_eq_true_iff.symm))

theorem same_eq_true (ha : a.IsOperand) (hb : b.IsOperand) : a.same b = .ok true ↔ a.simplest? = b.simplest? := by
  rw [same_eq ha hb, Except.ok.injEq, decide_eq_true_iff]

theorem same_eq_false (ha : a.IsOperand) (hb : b.IsOperand) : a.same b = .ok false ↔ a.simplest? ≠ b.simplest? := by
  rw [same_eq ha hb, Except.ok.injEq, decide_eq_false_iff_not]

theorem isKey_of_isOperand (h : d.IsOperand) : d.isKey = true := by
  obtain ⟨v, hv⟩ := Option.isSome_iff_exists.1 h
  obtain ⟨t, rfl, -⟩ | ⟨i, rfl, -⟩ | rfl := operand?_cases hv <;> rfl

/-- Equal data has one hash. -/
theorem hash_eq (H : Hashing) (ha : a.IsOperand) (hb : b.IsOperand) (equal : a.simplest? = b.simplest?) :
    H.datum a = H.datum b := by
  obtain ⟨v, hv⟩ := Option.isSome_iff_exists.1 ha
  obtain ⟨w, hw⟩ := Option.isSome_iff_exists.1 hb
  rw [simplest?, simplest?, hv, hw, Option.map_some, Option.map_some, Option.some_inj] at equal
  rw [H.datum_of_operand? hv, H.datum_of_operand? hw, ← H.value_simplify v, equal, H.value_simplify]

/-- The table of the data alone. -/
def entries (H : Hashing) (ds : List Datum) : List (Entry Unit) := ds.map fun d => ⟨H.datum d, d, ()⟩

/-- An entry is that of a key just if the two are equal: keys that are not compared differ. -/
theorem isOf_eq (H : Hashing) (ha : a.IsOperand) (hb : b.IsOperand) :
    (⟨H.datum a, a, ()⟩ : Entry Unit).isOf (H.datum b) b = .ok (decide (a.simplest? = b.simplest?)) := by
  rw [Entry.isOf]
  split
  next => exact same_eq ha hb
  next differ => rw [decide_eq_false fun equal => differ (hash_eq H ha hb equal)]

/-- Setting an entry keeps the data that is there, and appends data that equals none of it. -/
theorem setEntry_entries (hd : d.IsOperand) {kept : List Datum} (operands : ∀ k ∈ kept, k.IsOperand) :
    (∃ k ∈ kept, k.simplest? = d.simplest?) ∧
        (∀ H : Hashing, setEntry (H.datum d) d () (entries H kept) = .ok (entries H kept)) ∨
      (∀ k ∈ kept, k.simplest? ≠ d.simplest?) ∧
        ∀ H : Hashing, setEntry (H.datum d) d () (entries H kept) = .ok (entries H (kept ++ [d])) := by
  induction kept with
  | nil => exact .inr ⟨by simp, fun _ => rfl⟩
  | cons k rest ih =>
    obtain ⟨hk, later⟩ := List.forall_mem_cons.1 operands
    by_cases equal : k.simplest? = d.simplest?
    · refine .inl ⟨⟨k, List.mem_cons_self, equal⟩, fun H => ?_⟩
      simp only [entries, List.map_cons, setEntry, isOf_eq H hk hd, decide_eq_true equal]
      rfl
    · have passed : ∀ (H : Hashing) o, setEntry (H.datum d) d () (entries H rest) = .ok o →
          setEntry (H.datum d) d () (entries H (k :: rest)) = .ok (⟨H.datum k, k, ()⟩ :: o) := by
        intro H o run
        simp only [entries, List.map_cons, setEntry, isOf_eq H hk hd, decide_eq_false equal] at run ⊢
        rw [run]
        rfl
      rcases ih later with ⟨⟨l, mem, same⟩, run⟩ | ⟨fresh, run⟩
      · exact .inl ⟨⟨l, List.mem_cons_of_mem k mem, same⟩, fun H => passed H _ (run H)⟩
      · exact .inr ⟨List.forall_mem_cons.2 ⟨equal, fresh⟩, fun H => passed H _ (run H)⟩

/-- Data set one after another: what is kept are the firsts of all data so far, whatever the hashes are. -/
theorem foldlM_setEntry {ds done kept : List Datum} (operands : ∀ d ∈ done ++ ds, d.IsOperand)
    (h : Lists.KeepsFirsts simplest? done kept) :
    ∃ all, (∀ H : Hashing, (ds.map fun d => (d, ())).foldlM (fun seen e => setEntry (H.datum e.1) e.1 e.2 seen)
        (entries H kept) = .ok (entries H all)) ∧ Lists.KeepsFirsts simplest? (done ++ ds) all := by
  induction ds generalizing done kept with
  | nil => exact ⟨kept, fun _ => rfl, by rwa [List.append_nil]⟩
  | cons d ds ih =>
    have hd : d.IsOperand := operands d (by simp)
    have known : ∀ k ∈ kept, k.IsOperand := fun k mem => operands k (List.mem_append_left _ (h.sublist.subset mem))
    have split : done ++ d :: ds = (done ++ [d]) ++ ds := by simp
    rw [split] at operands ⊢
    simp only [List.map_cons, List.foldlM_cons]
    rcases setEntry_entries hd known with ⟨⟨k, mem, equal⟩, run⟩ | ⟨fresh, run⟩
    · simp only [run]
      exact ih operands (h.skip mem equal)
    · simp only [run]
      exact ih operands (h.take fresh)

/-- Dropping repetitions keeps the firsts. -/
theorem distinctBy_keepsFirsts {ds : List Datum} (operands : ∀ d ∈ ds, d.IsOperand) :
    ∃ kept, (∀ H, distinctBy H ds = .ok kept) ∧ Lists.KeepsFirsts simplest? ds kept := by
  have keys : (ds.map fun d => (d, ())).all (·.1.isKey) = true := by
    simpa using fun d mem => isKey_of_isOperand (operands d mem)
  have allOperands : ∀ d ∈ [] ++ ds, d.IsOperand := operands
  obtain ⟨kept, run, firsts⟩ := foldlM_setEntry allOperands .nil
  refine ⟨kept, fun H => ?_, firsts⟩
  have data : (entries H kept).map (·.key) = kept := List.map_map.trans (List.map_id kept)
  rw [distinctBy, table, if_pos keys, show ([] : List (Entry Unit)) = entries H [] from rfl, run H]
  exact congrArg Except.ok data

/-- Equality is an equivalence among data that stands for values, and equal data has one hash. A list of such data without
repetitions, found by way of hashes, consists of the first item of each class, however plain data is hashed. -/
theorem same_equivalence :
    (∀ a : Datum, a.IsOperand → a.same a = .ok true) ∧
      (∀ a b : Datum, a.IsOperand → b.IsOperand → ∃ equal, a.same b = .ok equal ∧ b.same a = .ok equal) ∧
        (∀ a b c : Datum, a.IsOperand → b.IsOperand → c.IsOperand → a.same b = .ok true → b.same c = .ok true →
          a.same c = .ok true) ∧
          (∀ a b : Datum, a.IsOperand → b.IsOperand → a.same b = .ok true → ∀ H : Hashing, H.datum a = H.datum b) ∧
            ∀ ds : List Datum, (∀ d ∈ ds, d.IsOperand) → ∃ kept, (∀ H, distinctBy H ds = .ok kept) ∧
              distinct ds = .ok kept ∧ kept.Sublist ds ∧ kept.Pairwise (fun k l => k.same l = .ok false) ∧
                ∀ d ∈ ds, ∃ before k after, ds = before ++ k :: after ∧ k ∈ kept ∧ k.same d = .ok true ∧
                  ∀ e ∈ before, e.same d = .ok false := by
  refine ⟨fun a ha => (same_eq_true ha ha).2 rfl, fun a b ha hb => ?_, fun a b c ha hb hc first second => ?_,
    fun a b ha hb equal H => hash_eq H ha hb ((same_eq_true ha hb).1 equal), fun ds operands => ?_⟩
  · exact ⟨_, same_eq ha hb, by rw [same_eq hb ha]; simp only [eq_comm]⟩
  · exact (same_eq_true ha hc).2 (((same_eq_true ha hb).1 first).trans ((same_eq_true hb hc).1 second))
  · obtain ⟨kept, run, firsts⟩ := distinctBy_keepsFirsts operands
    have known : ∀ k ∈ kept, k.IsOperand := fun k mem => operands k (firsts.sublist.subset mem)
    refine ⟨kept, run, run .standard, firsts.sublist, ?_, fun d mem => ?_⟩
    · exact firsts.apart.imp_of_mem fun hk hl apart => (same_eq_false (known _ hk) (known _ hl)).2 apart
    · obtain ⟨before, k, after, rfl, keeps, equal, new⟩ := firsts.first d mem
      refine ⟨before, k, after, rfl, keeps, (same_eq_true (known k keeps) (operands d mem)).2 equal, fun e he => ?_⟩
      exact (same_eq_false (operands e (List.mem_append_left _ he)) (operands d mem)).2 (new e he)

/-- The number two in four forms, a matrix in two, and a polynomial that is not constant. -/
def unlikeKinds : List Datum :=
  let ones : Mat := ⟨1, 2, Nat.one_pos, Nat.two_pos, .ofFn fun _ _ => 1⟩
  [.value (.polynomial (.constant ['x'] (.ofRat 2))), .value (.matrix ones), .integer 2,
    .value (.polynomial (.identity ['x'])), .value (.polynomial (.constant ['y'] (.ofRat 2))), .value (.complex ⟨2, 0⟩),
    .value (.polynomial (.constant ['y'] (.matrix ones)))]

theorem same_equivalence_unlikeKinds :
    (∀ d ∈ unlikeKinds, d.IsOperand) ∧
      (integer 2).same (.value (.polynomial (.constant ['x'] (.ofRat 2)))) = .ok true ∧
        Datum.same (.value (.polynomial (.constant ['x'] (.ofRat 2)))) (.value (.complex ⟨2, 0⟩)) = .ok true ∧
          (integer 2).same (.value (.complex ⟨2, 0⟩)) = .ok true ∧
            (∀ H : Hashing, H.datum (integer 2) = H.datum (.value (.polynomial (.constant ['x'] (.ofRat 2))))) ∧
              ∃ kept, (∀ H, distinctBy H unlikeKinds = .ok kept) ∧ distinct unlikeKinds = .ok kept ∧
                kept.Sublist unlikeKinds ∧ kept.Pairwise (fun k l => k.same l = .ok false) ∧
                  ∀ d ∈ unlikeKinds, ∃ before k after, unlikeKinds = before ++ k :: after ∧ k ∈ kept ∧
                    k.same d = .ok true ∧ ∀ e ∈ before, e.same d = .ok false := by
  have operands : ∀ d ∈ unlikeKinds, d.IsOperand := by simp [unlikeKinds, IsOperand, operand?]
  have first : (integer 2).same (.value (.polynomial (.constant ['x'] (.ofRat 2)))) = .ok true := by decide +kernel
  have second : Datum.same (.value (.polynomial (.constant ['x'] (.ofRat 2)))) (.value (.complex ⟨2, 0⟩)) = .ok true := by
    decide +kernel
  obtain ⟨-, -, transitive, hashes, keys⟩ := same_equivalence
  exact ⟨operands, first, second, transitive _ _ _ (by rfl) (by rfl) (by rfl) first second,
    hashes _ _ (by rfl) (by rfl) first, keys unlikeKinds operands⟩

end Datum

end Reckoner
