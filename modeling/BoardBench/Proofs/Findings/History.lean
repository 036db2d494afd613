import BoardBench.Proofs.Evaluation.Breakdown

/-!
# Findings — what was recorded stays, and an answer tells whether something was

An evaluation goes on or skips a check by the answer that a check gives, and the verdict goes by the
diagnostics that are recorded in the end. The two have to tell the same story. **A check answers no
exactly if it records something** (`Entry.Recorded`), and what is recorded is never touched again:
in the end the diagnostics are those of the single operations, one behind the other
(`diagnostics_performAll`). So **there is something wrong exactly if an error was recorded, a check
answered no, or a device logged an error** (`findings_only_grow`).

The operations are made into data, so that "whatever is done with findings" is a quantifier over
lists of them. The evaluations are not written as such lists. They call the operations with
arguments that depend on earlier answers, and any such run is a list of operations when it is over.

`Entry` has the findings on both sides of an operation, and `Recorded` is what each entry satisfies:
what it added is told from what it was asked, and what was there is unchanged. The statement about
the whole history is then an append of what was added, by one induction.
-/

set_option autoImplicit false

namespace BoardBench.Findings

/-! ## Operations -/

/-- What can be done with findings. -/
inductive Operation where
  | error (d : Diagnostic)
  | note (text : String)
  | checkCounts (channel : String) (tallies : List Tally)
  | checkSpacing (channel what : String) (b : Bounds) (events : List Event)
deriving Repr, DecidableEq

namespace Operation

def perform (f : Findings) : Operation → Findings
  | error d => f.error d
  | note text => f.note text
  | checkCounts channel tallies => (f.checkCounts channel tallies).2
  | checkSpacing channel what b events => (f.checkSpacing channel what b events).2

/-- The answer to an operation, if it is a check. -/
def answer? (f : Findings) : Operation → Option Bool
  | error _ => none
  | note _ => none
  | checkCounts channel tallies => some (f.checkCounts channel tallies).1
  | checkSpacing channel what b events => some (f.checkSpacing channel what b events).1

end Operation

/-- The findings after some operations. -/
def performAll (ops : List Operation) (f : Findings) : Findings :=
  ops.foldl Operation.perform f

/-- An operation with the findings before and after it. -/
structure Entry where
  before : Findings
  operation : Operation
  answer : Option Bool
  after : Findings
deriving Repr, DecidableEq

/-- What became of some operations, one after the other. -/
def history : List Operation → Findings → List Entry
  | [], _ => []
  | o :: ops, f => ⟨f, o, o.answer? f, o.perform f⟩ :: history ops (o.perform f)

namespace Entry

/-- What was recorded behind what was there before. -/
def added (x : Entry) : List Diagnostic :=
  x.after.diagnostics.drop x.before.diagnostics.length

/-- The operation was answered, and with yes exactly if it recorded nothing. -/
def AnsweredTruly (x : Entry) : Prop :=
  ∃ ok, x.answer = some ok ∧ (ok = true ↔ x.added = [])

end Entry

/-- The wording for a number that differs from the first one. -/
def countWording (channel : String) (reference other : Tally) : String :=
  channel ++ ": Number of " ++ reference.label ++ " (" ++ Text.decimal reference.count
    ++ ") does not match number of " ++ other.label ++ " (" ++ Text.decimal other.count ++ ")"

/-- What is to be said of a number behind the first one: that they differ, and what they are. -/
def Miscounted (channel : String) (reference : Tally) (others : List Tally) (i : Nat)
    (d : Diagnostic) : Prop :=
  ∃ t, others[i]? = some t ∧ t.count ≠ reference.count ∧ d = .counts channel reference t ∧
    d.message = countWording channel reference t

/-- What a comparison of numbers records: nothing if there are fewer than two of them, and otherwise
one thing for each number behind the first that differs from it. -/
def CountsCompared (channel : String) (tallies : List Tally) (ds : List Diagnostic) : Prop :=
  (tallies.length ≤ 1 → ds = []) ∧
    ∀ reference others, tallies = reference :: others →
      OnePerPosition (Miscounted channel reference others) ds

namespace Entry

/-- The operation did what it is for, and nothing else. -/
def AsAsked (x : Entry) : Prop :=
  match x.operation with
  | .error d => x.added = [d] ∧ x.after.notes = x.before.notes ∧ x.answer = none
  | .note text => x.added = [] ∧ x.after.notes = x.before.notes ++ [text] ∧ x.answer = none
  | .checkCounts channel tallies =>
    x.AnsweredTruly ∧ x.after.notes = x.before.notes ∧ CountsCompared channel tallies x.added
  | .checkSpacing .. => x.AnsweredTruly ∧ x.after.notes = x.before.notes

/-- What was recorded before is still there, and only what was asked for is new. -/
structure Recorded (x : Entry) : Prop where
  grows : x.after.diagnostics = x.before.diagnostics ++ x.added
  asked : x.AsAsked

end Entry

/-! ## What one operation records -/

variable {x : Entry} {ops : List Operation} {f : Findings}

/-- **A check that picks some entries of a sequence says one thing of each.** -/
theorem onePerPosition_filter {α : Type} (p : α → Bool) (say : α → Diagnostic) (xs : List α) :
    OnePerPosition (fun i d => ∃ x, xs[i]? = some x ∧ p x = true ∧ d = say x)
      ((xs.filter p).map say) := by
  have hnumbered : (xs.filter p).map say =
      xs.zipIdx.filterMap fun y => (Option.guard p y.1).map say := by
    conv_lhs => rw [← List.zipIdx_map_fst 0 xs]
    rw [← List.filterMap_eq_filter, List.map_filterMap, List.filterMap_map]
    rfl
  rw [hnumbered]
  refine (onePerPosition_filterMap xs).congr fun i d => exists_congr fun x => ?_
  refine and_congr_right fun _ => ?_
  rw [Option.map_eq_some_iff]
  constructor
  · rintro ⟨y, hy, rfl⟩
    obtain ⟨rfl, hp⟩ := Option.guard_eq_some_iff.1 hy
    exact ⟨hp, rfl⟩
  · rintro ⟨hp, rfl⟩
    exact ⟨x, Option.guard_eq_some_iff.2 ⟨rfl, hp⟩, rfl⟩

/-- **Numbers are compared with the first one.** -/
theorem countsCompared (channel : String) (tallies : List Tally) :
    CountsCompared channel tallies (countDiagnostics channel tallies) := by
  refine ⟨fun hfew => ?_, ?_⟩
  · match tallies, hfew with
    | [], _ => rfl
    | [_], _ => rfl
  · rintro reference others rfl
    refine (onePerPosition_filter _ _ others).congr fun i d => exists_congr fun t => ?_
    refine and_congr_right fun _ => ?_
    rw [bne_iff_ne]
    refine and_congr_right fun _ => (and_iff_left_of_imp ?_).symm
    rintro rfl
    rfl

/-- What an operation adds to the diagnostics. It does not depend on what is there. -/
def Operation.records : Operation → List Diagnostic
  | .error d => [d]
  | .note _ => []
  | .checkCounts channel tallies => countDiagnostics channel tallies
  | .checkSpacing channel what b events => spacingDiagnostics channel what b events

theorem diagnostics_perform (o : Operation) (f : Findings) :
    (o.perform f).diagnostics = f.diagnostics ++ o.records := by
  cases o with
  | error d => rfl
  | note text => exact (List.append_nil _).symm
  | checkCounts channel tallies => rfl
  | checkSpacing channel what b events => rfl

theorem added_entry (o : Operation) (f : Findings) :
    Entry.added ⟨f, o, o.answer? f, o.perform f⟩ = o.records := by
  rw [Entry.added, diagnostics_perform, List.drop_left]

/-- **One operation records what it was asked for, behind what was there, and answers truly.** -/
theorem recorded_entry (o : Operation) (f : Findings) :
    Entry.Recorded ⟨f, o, o.answer? f, o.perform f⟩ := by
  have hadded := added_entry o f
  refine ⟨by rw [hadded, diagnostics_perform], ?_⟩
  unfold Entry.AsAsked
  cases o with
  | error d => exact ⟨hadded, rfl, rfl⟩
  | note text => exact ⟨hadded, rfl, rfl⟩
  | checkCounts channel tallies =>
    refine ⟨⟨_, rfl, ?_⟩, rfl, ?_⟩
    · rw [hadded]
      exact List.isEmpty_iff
    · rw [hadded]
      exact countsCompared channel tallies
  | checkSpacing channel what b events =>
    refine ⟨⟨_, rfl, ?_⟩, rfl⟩
    rw [hadded]
    exact List.isEmpty_iff

/-- **Something was recorded if it was an error or a check that answered no.** -/
theorem Entry.Recorded.added_ne_nil_iff (h : x.Recorded) :
    x.added ≠ [] ↔ (∃ d, x.operation = .error d) ∨ x.answer = some false := by
  have hasked := h.asked
  unfold AsAsked at hasked
  have hcheck : x.AnsweredTruly → (x.added ≠ [] ↔ x.answer = some false) := by
    rintro ⟨ok, hanswer, hok⟩
    rw [hanswer, Option.some.injEq, ← Bool.not_eq_true, hok]
  cases ho : x.operation with
  | error d =>
    rw [ho] at hasked
    simp [hasked.1]
  | note text =>
    rw [ho] at hasked
    obtain ⟨hadded, -, hanswer⟩ := hasked
    simp [hadded, hanswer]
  | checkCounts channel tallies =>
    rw [ho] at hasked
    simp [hcheck hasked.1]
  | checkSpacing channel what b events =>
    rw [ho] at hasked
    simp [hcheck hasked.1]

/-! ## What a run of them records -/

theorem map_operation_history (ops : List Operation) (f : Findings) :
    (history ops f).map Entry.operation = ops := by
  induction ops generalizing f with
  | nil => rfl
  | cons o ops ih => rw [history, List.map_cons, ih]

theorem recorded_of_mem_history (hx : x ∈ history ops f) : x.Recorded := by
  induction ops generalizing f with
  | nil => cases hx
  | cons o ops ih =>
    rcases List.mem_cons.1 hx with rfl | hx
    · exact recorded_entry o f
    · exact ih hx

/-- **In the end the diagnostics are those that were there, and what every operation recorded, in
order.** -/
theorem diagnostics_performAll (ops : List Operation) (f : Findings) :
    (performAll ops f).diagnostics = f.diagnostics ++ (history ops f).flatMap Entry.added := by
  induction ops generalizing f with
  | nil => exact (List.append_nil _).symm
  | cons o ops ih =>
    calc (performAll ops (o.perform f)).diagnostics
        = (o.perform f).diagnostics ++ (history ops (o.perform f)).flatMap Entry.added := ih _
      _ = f.diagnostics ++ (history (o :: ops) f).flatMap Entry.added := by
        rw [history, List.flatMap_cons, added_entry, diagnostics_perform, List.append_assoc]

/-- **What was recorded stays to the end.** -/
theorem after_isPrefix_of_mem_history (hx : x ∈ history ops f) :
    x.after.diagnostics <+: (performAll ops f).diagnostics := by
  induction ops generalizing f with
  | nil => cases hx
  | cons o ops ih =>
    rcases List.mem_cons.1 hx with rfl | hx
    · exact ⟨_, (diagnostics_performAll ops (o.perform f)).symm⟩
    · exact ih hx

/-- **Findings only grow, and answers tell whether they did.** Whatever is done with new findings:
each operation leaves what was recorded before as it is, and records behind it what it was asked
for; a check answers no exactly if it recorded something. What was recorded once is still there in
the end, and all diagnostics are there in the order of the operations. So the evaluation that is
made of them says that something is wrong exactly if an error was recorded, a check answered no, or
the log has an error that a device logged. -/
theorem findings_only_grow (ops : List Operation) (s : Subsystem) (log : List Event) :
    let entries := history ops {}
    let e : Evaluation := { subsystem := s, log, findings := performAll ops {} }
    entries.map Entry.operation = ops ∧
      (∀ x ∈ entries, x.Recorded ∧ x.after.diagnostics <+: e.diagnostics) ∧
      e.diagnostics = entries.flatMap Entry.added ∧
      (e.hasErrors = true ↔ (∃ d, .error d ∈ ops) ∨ (∃ x ∈ entries, x.answer = some false) ∨
        ∃ m ∈ log, m.isError = true) := by
  intro entries e
  have hoperations : entries.map Entry.operation = ops := map_operation_history ops {}
  have hall : e.diagnostics = entries.flatMap Entry.added := diagnostics_performAll ops {}
  have herror : (∃ x ∈ entries, ∃ d, x.operation = .error d) ↔ ∃ d, .error d ∈ ops := by
    rw [← hoperations]
    simp only [List.mem_map]
    exact ⟨fun ⟨x, hx, d, hd⟩ => ⟨d, x, hx, hd⟩, fun ⟨d, x, hx, hd⟩ => ⟨x, hx, d, hd⟩⟩
  have hsome : e.diagnostics ≠ [] ↔
      (∃ d, .error d ∈ ops) ∨ ∃ x ∈ entries, x.answer = some false := by
    rw [hall, Ne, List.flatMap_eq_nil_iff, not_forall, ← herror, ← exists_or]
    refine exists_congr fun x => ?_
    rw [Classical.not_imp, ← and_or_left]
    exact and_congr_right fun hx => (recorded_of_mem_history hx).added_ne_nil_iff
  refine ⟨hoperations, fun x hx => ⟨recorded_of_mem_history hx, after_isPrefix_of_mem_history hx⟩,
    hall, ?_⟩
  rw [Evaluation.hasErrors_iff, hsome, or_assoc]

/-- Checks that answer yes and no, with a note before them and an error behind. -/
def mixedChecks : List Operation := [
    .note "Found 3 frames",
    .checkCounts "can" [⟨"sent", 3⟩, ⟨"received", 2⟩, ⟨"echoed", 3⟩, ⟨"lost", 4⟩],
    .checkCounts "can" [⟨"sent", 3⟩],
    .checkCounts "can" [],
    .checkSpacing "can" "frame" ⟨40, 60⟩
      [⟨100, .inf, "sut", "a"⟩, ⟨150, .inf, "sut", "b"⟩, ⟨140, .inf, "sut", "c"⟩],
    .error (.plain "can: broken")]

theorem mixedChecks_are_recorded :
    (history mixedChecks {}).map Entry.answer =
        [none, some false, some true, some true, some false, none] ∧
      (performAll mixedChecks {}).diagnostics.map (·.message) =
        ["can: Number of sent (3) does not match number of received (2)",
          "can: Number of sent (3) does not match number of lost (4)",
          "can: frame spacing of -10ms at index 2 not in interval [40, 60] ms "
            ++ "(previous: 150ms, current: 140ms)",
          "can: broken"] ∧
      Evaluation.hasErrors ⟨.can, [], performAll mixedChecks {}⟩ = true := by
  obtain ⟨-, -, -, hverdict⟩ := findings_only_grow mixedChecks .can []
  exact ⟨by decide +kernel, by decide +kernel,
    hverdict.2 (Or.inl ⟨.plain "can: broken", by decide⟩)⟩

end BoardBench.Findings
