import Reckoner.CommandLine.Run
import Reckoner.Proofs.Session.Definition
import Reckoner.Proofs.Session.Showing
/-!
# Refused lines leave no trace

What a line does to a run. A line that is refused, and a line that only asks for something, leave the session as it was; an
assignment that is accepted sets one name. So the results of a run, and the environment that it ends in, are those of the
run without its refused lines.
-/

namespace Reckoner

/-! ## Sessions -/

namespace Environment

/-- What a definition changes: one name of one kind. -/
def Sets (env after : Environment) : Definition → Prop
  | .variable name v =>
    after.value? name = some v ∧ (∀ other, other ≠ name → after.value? other = env.value? other) ∧
      after.functions = env.functions
  | .function f =>
    after.function? f.name = some f ∧ (∀ other, other ≠ f.name → after.function? other = env.function? other) ∧
      after.values = env.values

theorem sets_define (env : Environment) (d : Definition) : env.Sets (env.define d) d := by
  cases d with
  | «variable» name v => exact ⟨lookup_setEntry_self, fun _ h => lookup_setEntry_other h, rfl⟩
  | function f => exact ⟨lookup_setEntry_self, fun _ h => lookup_setEntry_other h, rfl⟩

end Environment

namespace Session

variable {s : Session} {settings : Settings} {t : Text}

theorem display_line (s : Session) (t : Text) : (s.line t).1.display = s.display := by
  simp only [line, assign, afterDefinition]
  split
  · split <;> rfl
  · rfl

/-- A line that is no assignment leaves the session alone. -/
theorem line_of_not_assignment (h : Line.isAssignment t = false) : (s.line t).1 = s := by
  simp [line, h]

theorem outcome_assign (displayed : s.display = .ofSettings settings) :
    (∃ e, (s.environment.assign t).outcome = .error e ∧ (s.assign t).2.outcome = .error e ∧ (s.assign t).1 = s) ∨
    ∃ d shown, (s.environment.assign t).outcome = .ok d ∧
      (s.assign t).2.outcome = .written (settings.writesDefinition d) shown ∧
        (s.assign t).1 = { s with environment := s.environment.define d } := by
  cases outcome : (s.environment.assign t).outcome with
  | error e =>
    refine .inl ⟨e, rfl, ?_, ?_⟩
    · simp only [assign, Traced.outcome_bind, outcome]
      rfl
    · simp only [assign, afterDefinition, outcome]
  | ok d =>
    obtain ⟨shown, show_d⟩ := Display.showDefinition_ofSettings settings d
    refine .inr ⟨d, shown, rfl, ?_, ?_⟩
    · simp only [assign, Traced.outcome_bind, outcome, displayed]
      exact show_d
    · simp only [assign, afterDefinition, outcome]

/-- A line that is refused leaves the session alone. What is defined but cannot be shown is not refused. -/
theorem line_of_fault (displayed : s.display = .ofSettings settings) {f : Fault}
    (failed : (s.line t).2.outcome = .error (.fault f)) : (s.line t).1 = s := by
  unfold line at failed ⊢
  split at failed
  next assigns =>
    rw [if_pos assigns]
    rcases outcome_assign displayed (t := t) with ⟨_, -, -, unchanged⟩ | ⟨d, shown, -, written, -⟩
    · exact unchanged
    · rw [written, Outcome.written_eq_error] at failed
      cases failed.2
  next asks => rw [if_neg asks]

/-- An assignment that is accepted sets what it defines. -/
theorem line_of_assignment (displayed : s.display = .ofSettings settings) (assigns : Line.isAssignment t = true)
    {shown : Text} (accepted : (s.line t).2.outcome = .ok shown) :
    ∃ d, (s.environment.assign t).outcome = .ok d ∧
      (s.line t).1 = { s with environment := s.environment.define d } := by
  unfold line at accepted ⊢
  rw [if_pos assigns] at accepted ⊢
  rcases outcome_assign displayed (t := t) with ⟨e, -, failed, -⟩ | ⟨d, _, defined, -, after⟩
  · rw [failed] at accepted
    cases accepted
  · exact ⟨d, defined, after⟩

end Session

/-! ## Runs -/

namespace CommandLine.Run

variable {r : Run} {time t : Text} {ts : List Text} {settings : Settings}

/-- Whether a line is refused. -/
def refuses (r : Run) (time t : Text) : Bool :=
  match (r.line time t).2.refused with
  | .ok refused => refused
  | .error _ => false

/-- The run after some lines. -/
def afterLines (r : Run) (time : Text) (ts : List Text) : Run := ts.foldl (fun r t => (r.line time t).1) r

/-- The lines that are not refused where they stand. -/
def acceptedLines (r : Run) (time : Text) : List Text → List Text
  | [] => []
  | t :: rest =>
    let later := acceptedLines (r.line time t).1 time rest
    if r.refuses time t then later else t :: later

/-- What a line does to the run: nothing if it fails or only asks for something, else it sets what it defines. -/
structure Effect (r : Run) (time t : Text) : Prop where
  failed : (r.line time t).2.refused ≠ .ok false → (r.line time t).1 = r
  asked : Line.isAssignment (Text.trim t) = false → (r.line time t).1 = r
  assigned : Line.isAssignment (Text.trim t) = true → (r.line time t).2.refused = .ok false →
    ∃ d env, (r.session.environment.assign (Text.trim t)).outcome = .ok d ∧ r.session.environment.Sets env d ∧
      (r.line time t).1 = { r with session := { r.session with environment := env } }

/-! ### One line -/

theorem line_of_blank (blank : (Text.trim t).isEmpty = true) : r.line time t = (r, {}) := by
  simp [line, blank]

theorem line_fst (given : (Text.trim t).isEmpty = false) :
    (r.line time t).1 = { r with session := (r.session.line (Text.trim t)).1 } := by
  simp only [line, given, Bool.false_eq_true, if_false]
  split <;> rfl

theorem refused_line_eq_false (given : (Text.trim t).isEmpty = false) :
    (r.line time t).2.refused = .ok false ↔ ∃ shown, (r.session.line (Text.trim t)).2.outcome = .ok shown := by
  simp only [line, given, Bool.false_eq_true, if_false]
  split <;> simp_all

theorem refused_line_eq_true (given : (Text.trim t).isEmpty = false) :
    (r.line time t).2.refused = .ok true ↔ ∃ f, (r.session.line (Text.trim t)).2.outcome = .error (.fault f) := by
  simp only [line, given, Bool.false_eq_true, if_false]
  split <;> simp_all

theorem refuses_eq_true : r.refuses time t = true ↔ (r.line time t).2.refused = .ok true := by
  unfold refuses
  split <;> simp_all

/-- A line that is refused writes no result. -/
theorem out_of_refuses (h : r.refuses time t = true) : (r.line time t).2.out = [] := by
  rw [refuses_eq_true] at h
  cases given : (Text.trim t).isEmpty with
  | true => rw [line_of_blank given]
  | false =>
    simp only [line, given, Bool.false_eq_true, if_false] at h ⊢
    split at h <;> simp_all

theorem effect (displayed : r.session.display = .ofSettings settings) {b : Bool}
    (ended : (r.line time t).2.refused = .ok b) : r.Effect time t := by
  cases given : (Text.trim t).isEmpty with
  | true =>
    have blank : Text.trim t = [] := List.isEmpty_iff.1 given
    have unchanged : (r.line time t).1 = r := by rw [line_of_blank given]
    exact ⟨fun _ => unchanged, fun _ => unchanged, fun assigns => by rw [blank] at assigns; cases assigns⟩
  | false =>
    refine ⟨fun failed => ?_, fun asks => ?_, fun assigns accepted => ?_⟩
    · cases b with
      | false => exact absurd ended failed
      | true =>
        obtain ⟨f, outcome⟩ := (refused_line_eq_true given).1 ended
        rw [line_fst given, Session.line_of_fault displayed outcome]
    · rw [line_fst given, Session.line_of_not_assignment asks]
    · obtain ⟨shown, outcome⟩ := (refused_line_eq_false given).1 accepted
      obtain ⟨d, defined, after⟩ := Session.line_of_assignment displayed assigns outcome
      refine ⟨d, r.session.environment.define d, defined, Environment.sets_define _ d, ?_⟩
      rw [line_fst given, after]

theorem line_of_refuses (displayed : r.session.display = .ofSettings settings) (h : r.refuses time t = true) :
    (r.line time t).1 = r :=
  (effect displayed (refuses_eq_true.1 h)).failed (by rw [refuses_eq_true.1 h]; simp)

theorem display_line (r : Run) (time t : Text) : (r.line time t).1.session.display = r.session.display := by
  cases given : (Text.trim t).isEmpty with
  | true => rw [line_of_blank given]
  | false => rw [line_fst given]; exact Session.display_line _ _

/-! ### Lines one after the other -/

@[simp] theorem afterLines_nil : r.afterLines time [] = r := rfl

@[simp] theorem afterLines_cons : r.afterLines time (t :: ts) = (r.line time t).1.afterLines time ts := rfl

theorem display_afterLines : (r.afterLines time ts).session.display = r.session.display := by
  induction ts generalizing r with
  | nil => rfl
  | cons t ts ih => rw [afterLines_cons, ih, display_line]

/-- Lines that come to their end: the first line does not end the run, and neither do the others. -/
theorem refused_lines_cons {b : Bool} (h : (r.lines time (t :: ts)).refused = .ok b) :
    ∃ later, ((r.line time t).1.lines time ts).refused = .ok later ∧ (r.line time t).2.refused = .ok (r.refuses time t) ∧
      b = (r.refuses time t || later) := by
  simp only [lines] at h
  split at h
  next first refused =>
    simp only [Transcript.followedBy, refused, Outcome.bind_eq_ok] at h
    obtain ⟨_, ⟨⟩, later, rest, h⟩ := h
    cases h
    have same : r.refuses time t = first := by simp [refuses, refused]
    exact ⟨later, rest, by rw [same, refused], by rw [same]⟩
  next e refused =>
    rw [refused] at h
    cases h

/-- None of the lines that come to their end ends the run. -/
theorem refused_of_lines {b : Bool} {before after : List Text} (ended : (r.lines time (before ++ t :: after)).refused = .ok b) :
    ∃ b, ((r.afterLines time before).line time t).2.refused = .ok b := by
  induction before generalizing r b with
  | nil =>
    obtain ⟨-, -, first, -⟩ := refused_lines_cons ended
    exact ⟨_, first⟩
  | cons u before ih =>
    obtain ⟨later, rest, -, -⟩ := refused_lines_cons ended
    exact ih rest

theorem lines_cons {b : Bool} (h : (r.line time t).2.refused = .ok b) :
    r.lines time (t :: ts) = (r.line time t).2.followedBy ((r.line time t).1.lines time ts) := by
  simp only [lines, h]

/-- The lines that are not refused end as all lines do, with the same results. -/
theorem lines_acceptedLines (displayed : r.session.display = .ofSettings settings) {b : Bool}
    (ended : (r.lines time ts).refused = .ok b) :
    (r.lines time (r.acceptedLines time ts)).out = (r.lines time ts).out ∧
      (r.lines time (r.acceptedLines time ts)).refused = .ok false ∧
      r.afterLines time (r.acceptedLines time ts) = r.afterLines time ts := by
  induction ts generalizing r b with
  | nil => exact ⟨rfl, rfl, rfl⟩
  | cons t ts ih =>
    obtain ⟨later, rest, first, -⟩ := refused_lines_cons ended
    obtain ⟨out, accepted, after⟩ := ih ((display_line r time t).trans displayed) rest
    rw [lines_cons first]
    simp only [acceptedLines]
    cases refuses : r.refuses time t with
    | true =>
      rw [line_of_refuses displayed refuses] at out accepted after ⊢
      rw [if_pos rfl]
      refine ⟨?_, accepted, ?_⟩
      · rw [out, Transcript.followedBy, out_of_refuses refuses, List.nil_append]
      · rw [after, afterLines_cons, line_of_refuses displayed refuses]
    | false =>
      rw [refuses] at first
      rw [if_neg Bool.false_ne_true, lines_cons first]
      refine ⟨?_, ?_, ?_⟩
      · simp only [Transcript.followedBy, out]
      · simp only [Transcript.followedBy, first, accepted]
        rfl
      · rw [afterLines_cons, afterLines_cons, after]

/-- Lines that come to their end count as refused exactly if one of them is. -/
theorem refused_lines_iff {b : Bool} (ended : (r.lines time ts).refused = .ok b) :
    b = true ↔ ∃ before t after, ts = before ++ t :: after ∧ (r.afterLines time before).refuses time t = true := by
  induction ts generalizing r b with
  | nil =>
    cases ended
    simp
  | cons t ts ih =>
    obtain ⟨later, rest, -, rfl⟩ := refused_lines_cons ended
    rw [Bool.or_eq_true, ih rest]
    constructor
    · rintro (refused | ⟨before, u, after, rfl, refused⟩)
      · exact ⟨[], t, ts, rfl, refused⟩
      · exact ⟨t :: before, u, after, rfl, refused⟩
    · rintro ⟨before, u, after, split, refused⟩
      cases before with
      | nil =>
        cases split
        exact .inl refused
      | cons _ before =>
        cases split
        exact .inr ⟨before, u, after, rfl, refused⟩

theorem display_of_start {o : Options} (h : start settings o = .ok r) :
    ∃ shown, r.session.display = .ofSettings shown := by
  simp only [start, Outcome.bind_eq_ok] at h
  obtain ⟨-, -, h⟩ := h
  cases h
  exact ⟨_, rfl⟩

/-- Refused lines leave no trace: in a run that comes to its end, a line that fails or only asks for something leaves
variables and functions as they were and every other line sets one name; the results and the end of the run are those of
the lines that are not refused, and the exit status tells whether there are others. -/
theorem lines_without_refused {o : Options} {b : Bool} (started : start settings o = .ok r)
    (ended : (r.lines time ts).refused = .ok b) :
    (∀ before t after, ts = before ++ t :: after → (r.afterLines time before).Effect time t) ∧
      (r.lines time (r.acceptedLines time ts)).out = (r.lines time ts).out ∧
      r.afterLines time (r.acceptedLines time ts) = r.afterLines time ts ∧
      (r.lines time (r.acceptedLines time ts)).status = .ok 0 ∧
      ((r.lines time ts).status = .ok 0 ∨ (r.lines time ts).status = .ok 1) ∧
      ((r.lines time ts).status = .ok 1 ↔
        ∃ before t after, ts = before ++ t :: after ∧ (r.afterLines time before).refuses time t = true) := by
  obtain ⟨shown, displayed⟩ := display_of_start started
  obtain ⟨out, accepted, after⟩ := lines_acceptedLines displayed ended
  refine ⟨fun before t after split => ?_, out, after, ?_, ?_, ?_⟩
  · obtain ⟨b, line⟩ := refused_of_lines (split ▸ ended)
    exact effect (display_afterLines.trans displayed) line
  · rw [Transcript.status, accepted]
    rfl
  · rw [Transcript.status, ended]
    cases b
    · exact .inl rfl
    · exact .inr rfl
  · rw [← refused_lines_iff ended, Transcript.status, ended]
    cases b <;> simp [Except.map]

/-- The run that usual settings start. -/
def usual : Run := ⟨.start {} {}, false, false⟩

/-- Lines that are refused for a name, in the middle of a value and for a missing root, among lines that are not. -/
def mixedLines : List Text :=
  ["a = 2".toList, "i = a".toList, "f(x) = a*x^2".toList, "a = f(3) / (a - 2)".toList, "f(3) = ?".toList,
    "x^3 = a ?".toList]

theorem mixedLines_without_refused :
    start {} {} = .ok usual ∧ (usual.lines [] mixedLines).refused = .ok true ∧
      (∀ before t after, mixedLines = before ++ t :: after → (usual.afterLines [] before).Effect [] t) ∧
        (usual.lines [] (usual.acceptedLines [] mixedLines)).out = (usual.lines [] mixedLines).out ∧
        usual.afterLines [] (usual.acceptedLines [] mixedLines) = usual.afterLines [] mixedLines ∧
        (usual.lines [] (usual.acceptedLines [] mixedLines)).status = .ok 0 ∧
        ((usual.lines [] mixedLines).status = .ok 0 ∨ (usual.lines [] mixedLines).status = .ok 1) ∧
        ((usual.lines [] mixedLines).status = .ok 1 ↔
          ∃ before t after, mixedLines = before ++ t :: after ∧
            (usual.afterLines [] before).refuses [] t = true) := by
  have started : start {} {} = .ok usual := rfl
  have ended : (usual.lines [] mixedLines).refused = .ok true := by decide +kernel
  exact ⟨started, ended, lines_without_refused started ended⟩

example : usual.acceptedLines [] mixedLines = ["a = 2".toList, "f(x) = a*x^2".toList, "f(3) = ?".toList] := by
  decide +kernel

end CommandLine.Run

end Reckoner
