import BoardBench.Proofs.BoardTest.Outcome

/-!
# Histories — each call begins where the one before it ended

`Executor.History x s made s'` says of some exchanges that the executor made them, one after the
other, on the way from `s` to `s'`. The calls of a board test are such a history
(`BoardTest.history_run`), so that what is to hold between two calls can be shown call by call.

With the gate on, gates and phases take turns: **right before each phase that a test runs there is a
gate that was passed, and right before that gate, if anything, the phase before**
(`BoardTest.gate_before_phase`).

A history adds to the calls the states between them. The plan does not need these, but whatever is
carried from one call to the next is in them, such as the lines that a gate has left on a queue. So
facts that reach over several calls are proved by an induction on a history, and the theorem on
gates and phases says which calls follow one another in it, without a word on the plan.
-/

set_option autoImplicit false

namespace BoardBench

/-- A call that succeeded passed a gate or ran a phase to its end. -/
theorem Call.of_ending_done {x : Call} (h : x.ending = .done ()) :
    x = .idle (.done ()) ∨ ∃ b log, x = .phase b (.done log) := by
  cases x with
  | idle e =>
    cases e with
    | done => exact .inl rfl
    | failed e => cases h
    | stalled => cases h
  | phase b e =>
    cases e with
    | done log => exact .inr ⟨b, log, rfl⟩
    | failed e => cases h
    | stalled => cases h

section Histories

variable {τ α β : Type} {x : Executor (Steps τ)}

/-- The executor answers the call as is noted. -/
def Exchange.Of (x : Executor (Steps τ)) (y : Exchange τ) : Prop :=
  match y.call with
  | .idle e => ∃ outcome, x.ensureIdle y.before = (outcome, y.after) ∧ e = .ofOutcome outcome
  | .phase b e => ∃ outcome, x.runPhase b y.before = (outcome, y.after) ∧ e = .ofOutcome outcome

/-- Exchanges of an executor, each of which begins in the state in which the one before it ended. -/
inductive Executor.History (x : Executor (Steps τ)) : τ → List (Exchange τ) → τ → Prop
  | nil (s : τ) : History x s [] s
  | cons {y : Exchange τ} {made : List (Exchange τ)} {s' : τ} (hy : y.Of x)
      (h : History x y.after made s') : History x y.before (y :: made) s'

namespace Executor.History

variable {s s' s'' : τ} {front back : List (Exchange τ)} {y : Exchange τ}

theorem append (h : x.History s front s') (h' : x.History s' back s'') :
    x.History s (front ++ back) s'' := by
  induction h with
  | nil => exact h'
  | cons hy _ ih => exact .cons hy (ih h')

theorem single (hy : y.Of x) : x.History y.before [y] y.after :=
  .cons hy (.nil _)

/-- The first call begins where the history does, and the others where it ended. -/
theorem uncons (h : x.History s (y :: back) s') :
    y.before = s ∧ y.Of x ∧ x.History y.after back s' := by
  cases h with
  | cons hy hback => exact ⟨rfl, hy, hback⟩

/-- The history up to a call, the call, and the history behind it. -/
theorem split (h : x.History s (front ++ y :: back) s') :
    x.History s front y.before ∧ y.Of x ∧ x.History y.after back s' := by
  induction front generalizing s with
  | nil =>
    cases h with
    | cons hy hback => exact ⟨.nil _, hy, hback⟩
  | cons z front ih =>
    cases h with
    | cons hz hrest =>
      obtain ⟨hfront, hy, hback⟩ := ih hrest
      exact ⟨.cons hz hfront, hy, hback⟩

end Executor.History

/-- Work whose calls are a history of the executor. -/
def Executor.Records (x : Executor (Steps τ)) (plain : ExceptT BenchError (Steps τ) α)
    (work : ExceptT BenchError (Steps (τ × List (Exchange τ))) α) : Prop :=
  Makes plain work fun s made _ s' => x.History s made s'

namespace Executor

variable {plain : ExceptT BenchError (Steps τ) α}
  {work : ExceptT BenchError (Steps (τ × List (Exchange τ))) α}
  {f : α → ExceptT BenchError (Steps τ) β}
  {g : α → ExceptT BenchError (Steps (τ × List (Exchange τ))) β}

theorem records_pure (a : α) : x.Records (pure a) (pure a) :=
  makes_pure fun s => .nil s

theorem records_throw (e : BenchError) : x.Records (α := α) (throw e) (throw e) :=
  makes_throw fun s => .nil s

theorem records_ensureIdle (x : Executor (Steps τ)) :
    x.Records (ExceptT.mk x.ensureIdle) (ExceptT.mk x.recorded.ensureIdle) :=
  makes_call fun s => .single (y := ⟨s, .idle _, _⟩) ⟨_, rfl, rfl⟩

theorem records_runPhase (x : Executor (Steps τ)) (b : Bracket) :
    x.Records (ExceptT.mk (x.runPhase b)) (ExceptT.mk (x.recorded.runPhase b)) :=
  makes_call fun s => .single (y := ⟨s, .phase b _, _⟩) ⟨_, rfl, rfl⟩

theorem Records.bind (h : x.Records plain work) (hf : ∀ a, x.Records (f a) (g a)) :
    x.Records (plain >>= f) (work >>= g) :=
  Makes.bind h hf (fun hfront hback => hfront.append hback) id id

end Executor

end Histories

namespace BoardTest

section Course

variable {τ : Type} (x : Executor (Steps τ)) (c : Config)

theorem records_ready : x.Records (ready x c) (ready x.recorded c) := by
  unfold ready
  split
  · exact x.records_ensureIdle
  · exact Executor.records_pure ()

theorem records_identify : x.Records (identify x) (identify x.recorded) := by
  refine (x.records_runPhase Identity.bracket).bind fun log => ?_
  split
  · exact Executor.records_pure _
  · exact Executor.records_throw _

theorem records_evaluateAll (subs : List Subsystem) :
    x.Records (evaluateAll x c subs) (evaluateAll x.recorded c subs) := by
  induction subs with
  | nil => exact Executor.records_pure []
  | cons s subs ih =>
    refine (records_ready x c).bind fun _ => Executor.Records.bind ?_ fun e =>
      ih.bind fun es => Executor.records_pure (e :: es)
    exact (x.records_runPhase s.bracket).bind fun log => Executor.records_pure _

/-- **The calls of a board test are a history of its executor.** -/
theorem history_run : x.Records (run x c) (run x.recorded c) :=
  (records_ready x c).bind fun _ => (records_identify x).bind fun i =>
    (records_evaluateAll x c Subsystem.executionOrder).bind fun es =>
      Executor.records_pure (BoardTest.mk i es)

end Course

/-! ## Gates and phases in turn -/

variable {c : Config}

/-- All that a board test may ask for. -/
theorem plan_phases (c : Config) :
    plan c [Identity.bracket] ++ plan c (Subsystem.executionOrder.map Subsystem.bracket) =
      plan c phases := by
  simp only [plan, ← List.flatMap_append]
  rfl

/-- Of the calls of a test only the last one may have failed. -/
theorem Conclusion.along {calls : List Call} {e : Ending BenchError BoardTest}
    (h : Conclusion c (plan c [Identity.bracket]) calls e) :
    calls.map Call.request <+: plan c phases ∧
      ∀ front x back, calls = front ++ x :: back → ∀ y ∈ front, y.ending = .done () := by
  have hall : ∀ {calls : List Call}, (∀ y ∈ calls, y.ending = .done ()) →
      ∀ front x back, calls = front ++ x :: back → ∀ y ∈ front, y.ending = .done () := by
    rintro calls hdone front x back rfl y hy
    exact hdone y (List.mem_append_left _ hy)
  rw [← plan_phases c]
  cases h with
  | passed hplan hlogs hid => exact ⟨hplan.1 ▸ List.prefix_rfl, hall hplan.2⟩
  | unidentified hplan hlogs hid => exact ⟨hplan.1 ▸ List.prefix_append _ _, hall hplan.2⟩
  | cut hcut hid =>
    obtain ⟨done, last, rfl, hplan, hdone, -⟩ := hcut
    refine ⟨hplan, fun front x back heq y hy => hdone y ?_⟩
    -- whatever has a call behind it is not the last one
    have hfront : front <+: done := by
      refine List.prefix_of_prefix_length_le (heq ▸ List.prefix_append front _)
        (List.prefix_append done [last]) ?_
      have hlength := congrArg List.length heq
      simp only [List.length_append, List.length_cons, List.length_nil] at hlength
      omega
    exact hfront.subset hy

/-- With the gate on, what is asked for before a phase is asked for a number of other phases, and
then whether the devices are idle. -/
theorem front_of_plan (hidle : c.idle.enabled = true) {bs : List Bracket} {b : Bracket}
    {front back : List Request} (h : front ++ .phase b :: back <+: plan c bs) :
    ∃ earlier, earlier ++ [b] <+: bs ∧ front = plan c earlier ++ [.idle] := by
  induction bs generalizing front with
  | nil =>
    obtain ⟨rest, hrest⟩ := h
    cases front <;> cases hrest
  | cons b' bs ih =>
    have hround : plan c (b' :: bs) = .idle :: .phase b' :: plan c bs := by
      simp [plan, gate, hidle]
    rw [hround] at h
    rcases front with _ | ⟨q, _ | ⟨q', front⟩⟩
    · cases (List.cons_prefix_cons.1 h).1
    · obtain ⟨hq, hrest⟩ := List.cons_prefix_cons.1 h
      obtain ⟨hb, -⟩ := List.cons_prefix_cons.1 hrest
      rw [Request.phase.injEq] at hb
      exact ⟨[], List.cons_prefix_cons.2 ⟨hb, List.nil_prefix⟩, by rw [hq]; rfl⟩
    · obtain ⟨hq, hrest⟩ := List.cons_prefix_cons.1 h
      obtain ⟨hq', hrest⟩ := List.cons_prefix_cons.1 hrest
      obtain ⟨earlier, hbs, rfl⟩ := ih hrest
      refine ⟨b' :: earlier, List.cons_prefix_cons.2 ⟨rfl, hbs⟩, ?_⟩
      rw [hq, hq']
      simp [plan, gate, hidle]

/-- What ends a round is a phase. -/
theorem getLast?_plan {bs : List Bracket} {q : Request} (h : (plan c bs).getLast? = some q) :
    ∃ b, q = .phase b := by
  rcases List.eq_nil_or_concat bs with rfl | ⟨bs, b, rfl⟩
  · cases h
  · rw [plan, List.concat_eq_append, List.flatMap_append, List.flatMap_singleton,
      ← List.append_assoc, List.getLast?_concat] at h
    exact ⟨b, (Option.some.inj h).symm⟩

/-- A call that passed a gate, or ran a phase of a board test to its end. -/
def Passed (x : Call) : Prop :=
  x = .idle (.done ()) ∨ ∃ b log, b ∈ phases ∧ x = .phase b (.done log)

/-- **Right before a phase there is a gate that was passed**, and right before the gate, if it is
not the first one, the phase before, which was run to its end. -/
theorem gate_before_phase {τ : Type} {e : Ending BenchError BoardTest} {made : List (Exchange τ)}
    (hidle : c.idle.enabled = true)
    (h : Conclusion c (plan c [Identity.bracket]) (made.map Exchange.call) e)
    {front back : List (Exchange τ)} {y : Exchange τ} {b : Bracket} (hy : y.call.request = .phase b)
    (hmade : made = front ++ y :: back) :
    b ∈ phases ∧ ∃ earlier g, front = earlier ++ [g] ∧ g.call = .idle (.done ()) ∧
      (∀ z ∈ earlier, Passed z.call) ∧
      ∀ z, earlier.getLast? = some z → ∃ b log, z.call = .phase b (.done log) := by
  subst hmade
  obtain ⟨hplan, hdone⟩ := h.along
  -- whatever was called before the last call ended well, or the test would have ended there
  have hdone : ∀ z ∈ front, z.call.ending = .done () := fun z hz =>
    hdone _ _ (back.map Exchange.call) (by rw [List.map_append, List.map_cons]) _
      (List.mem_map_of_mem hz)
  simp only [List.map_append, List.map_cons, List.map_map, hy] at hplan
  have hphase : ∀ z ∈ front, ∀ b, z.call.request = .phase b → b ∈ phases := by
    intro z hz b hb
    have hmem : Request.phase b ∈ plan c phases :=
      hplan.subset (List.mem_append_left _ (List.mem_map.2 ⟨z, hz, hb⟩))
    obtain ⟨b', hb', hmem⟩ := List.mem_flatMap.1 hmem
    rcases List.mem_append.1 hmem with hmem | hmem
    · unfold gate at hmem
      split at hmem <;> simp at hmem
    · cases List.mem_singleton.1 hmem
      exact hb'
  -- what the plan asks for before a phase is rounds, and then the gate of the phase
  obtain ⟨bs, hbs, hfront⟩ := front_of_plan hidle hplan
  refine ⟨hbs.subset (List.mem_append_right _ (List.mem_singleton_self b)), ?_⟩
  obtain ⟨earlier, last, rfl, hearlier, hlast⟩ := List.map_eq_append_iff.1 hfront
  obtain ⟨g, rfl, hg⟩ := List.map_eq_singleton_iff.1 hlast
  refine ⟨earlier, g, rfl, ?_, fun z hz => ?_, fun z hz => ?_⟩
  · rcases Call.of_ending_done (hdone g (by simp)) with hcall | ⟨b', log, hcall⟩
    · exact hcall
    · rw [Function.comp_apply, hcall] at hg
      cases hg
  · have hz' : z ∈ earlier ++ [g] := List.mem_append_left _ hz
    rcases Call.of_ending_done (hdone z hz') with hcall | ⟨b', log, hcall⟩
    · exact .inl hcall
    · exact .inr ⟨b', log, hphase z hz' b' (by rw [hcall]; rfl), hcall⟩
  · have hmem : z ∈ earlier := List.mem_of_getLast? hz
    have hrequest : (plan c bs).getLast? = some z.call.request := by
      rw [← hearlier, List.getLast?_map, hz]
      rfl
    obtain ⟨b', hb'⟩ := getLast?_plan hrequest
    rcases Call.of_ending_done (hdone z (List.mem_append_left _ hmem)) with hcall | ⟨_, log, hcall⟩
    · rw [hcall] at hb'
      cases hb'
    · exact ⟨_, log, hcall⟩

end BoardTest

end BoardBench
