import BoardBench.Proofs.BoardTest.Calls
import BoardBench.Proofs.Evaluation.Verdict

/-!
# Outcomes — only errors stop a board test

What comes of a board test is settled by the calls that it makes and what they answer:
`Conclusion c calls e` says with which end `e` a test under the settings `c` concludes that made
these calls. There are three ways. **The test went through, and all logs were evaluated; the boards
could not be identified; or a call did not succeed, which ends the test at once**, with the error of
that call. So much holds of every executor, whatever it does and whenever it fails
(`makes_run`).

`Conclusion` is inductive with a constructor for each way to end, because the three share no
formula: what is known of the calls, of the logs and of the end differs, and a proof about outcomes
has these cases anyway. It has the requests that precede the evaluations as a parameter, so that the
same statement is proved from the inside to the outside, with one gate or phase more each time, and
the whole test is its last instance.
-/

set_option autoImplicit false

namespace BoardBench

namespace BoardTest

variable {c : Config} {calls front back : List Call} {bs : List Bracket}

/-! ## The plan -/

/-- What is asked for before a phase. -/
def gate (c : Config) : List Request :=
  if c.idle.enabled then [.idle] else []

/-- What is asked for in order to run some phases. -/
def plan (c : Config) (bs : List Bracket) : List Request :=
  bs.flatMap fun b => gate c ++ [.phase b]

/-- No phase is run at a gate. -/
theorem phaseLogs_gate (h : calls.map Call.request <+: gate c) : phaseLogs calls = [] := by
  rw [phaseLogs, List.filterMap_eq_nil_iff]
  intro x hx
  have hidle : x.request = .idle := by
    have hmem : x.request ∈ gate c := h.subset (List.mem_map_of_mem hx)
    unfold gate at hmem
    split at hmem
    · exact List.mem_singleton.1 hmem
    · cases hmem
  cases x with
  | idle e => rfl
  | phase b e => cases hidle

/-- With which end a test concludes that made these calls, the first of which were to identify the
boards. -/
inductive Conclusion (c : Config) (opening : List Request) :
    List Call → Ending BenchError BoardTest → Prop
  /-- Everything was called, and every log was evaluated. -/
  | passed {calls : List Call} {log : List Event} {logs : List (List Event)} {i : Identity}
      (hplan : Whole (opening ++ plan c (Subsystem.executionOrder.map Subsystem.bracket)) calls)
      (hlogs : phaseLogs calls = log :: logs) (hid : Identity.ofLog log = .ok i) :
      Conclusion c opening calls
        (.done ⟨i, Subsystem.executionOrder.zipWith (Evaluation.ofLog c.timing) logs⟩)
  /-- The log of the first phase does not identify the boards. -/
  | unidentified {calls : List Call} {log : List Event} {e : IdentityError}
      (hplan : Whole opening calls) (hlogs : phaseLogs calls = [log])
      (hid : Identity.ofLog log = .error e) :
      Conclusion c opening calls (.failed (.identity e))
  /-- The last call did not succeed. -/
  | cut {calls : List Call} {e : Ending BenchError BoardTest}
      (hcut : Cut (opening ++ plan c (Subsystem.executionOrder.map Subsystem.bracket)) calls e)
      (hid : ∀ log logs, phaseLogs calls = log :: logs → ∃ i, Identity.ofLog log = .ok i) :
      Conclusion c opening calls e

/-- What concludes a test concludes it as well behind calls that ran no phase. -/
theorem Conclusion.after {opening first : List Request} {e : Ending BenchError BoardTest}
    (h : Conclusion c opening back e) (hfirst : Whole first front) (hlogs : phaseLogs front = []) :
    Conclusion c (first ++ opening) (front ++ back) e := by
  have hall : phaseLogs (front ++ back) = phaseLogs back := by
    rw [phaseLogs_append, hlogs, List.nil_append]
  cases h with
  | passed hplan hlogs hid =>
    exact .passed (by rw [List.append_assoc]; exact hfirst.append hplan) (hall.trans hlogs) hid
  | unidentified hplan hlogs hid =>
    exact .unidentified (hfirst.append hplan) (hall.trans hlogs) hid
  | cut hcut hid =>
    refine .cut (by rw [List.append_assoc]; exact .after hfirst hcut) fun log logs heq => ?_
    exact hid log logs (hall.symm.trans heq)

/-! ## The course -/

section Course

variable {τ : Type} (x : Executor (Steps τ))

theorem follows_ready :
    Follows (ready x c) (ready x.recorded c) (gate c) fun calls _ => phaseLogs calls = [] := by
  unfold ready gate
  split
  · exact follows_single (fun _ => rfl) (fun _ => rfl) (fun _ => rfl)
  · exact follows_pure rfl

theorem follows_phase (b : Bracket) :
    Follows (ExceptT.mk (x.runPhase b)) (ExceptT.mk (x.recorded.runPhase b)) [.phase b]
      fun calls log => phaseLogs calls = [log] :=
  follows_single (fun _ => rfl) (fun _ => rfl) (fun _ => rfl)

theorem follows_evaluate (s : Subsystem) :
    Follows (evaluate x c s) (evaluate x.recorded c s) [.phase s.bracket] fun calls e =>
      ∃ log, phaseLogs calls = [log] ∧ e = Evaluation.ofLog c.timing s log := by
  rw [← List.append_nil [Request.phase s.bracket]]
  refine (follows_phase x s.bracket).bind (E := fun log calls e =>
    calls = [] ∧ e = Evaluation.ofLog c.timing s log) (fun log => follows_pure ⟨rfl, rfl⟩) ?_
  rintro front back log e hfront ⟨rfl, rfl⟩
  exact ⟨log, by rw [List.append_nil]; exact hfront, rfl⟩

theorem follows_evaluateAll (subs : List Subsystem) :
    Follows (evaluateAll x c subs) (evaluateAll x.recorded c subs)
      (plan c (subs.map Subsystem.bracket)) fun calls es =>
        es = subs.zipWith (Evaluation.ofLog c.timing) (phaseLogs calls) := by
  induction subs with
  | nil => exact follows_pure rfl
  | cons s subs ih =>
    have hplan : plan c ((s :: subs).map Subsystem.bracket) =
        gate c ++ ([.phase s.bracket] ++ (plan c (subs.map Subsystem.bracket) ++ [])) := by
      rw [List.append_nil, List.map_cons, plan, List.flatMap_cons, List.append_assoc]
      rfl
    rw [hplan]
    -- the evaluations behind the first one, with it in front of them
    have hrest : ∀ e, Follows (evaluateAll x c subs >>= fun es => pure (e :: es))
        (evaluateAll x.recorded c subs >>= fun es => pure (e :: es))
        (plan c (subs.map Subsystem.bracket) ++ []) fun calls es =>
          es = e :: subs.zipWith (Evaluation.ofLog c.timing) (phaseLogs calls) := by
      intro e
      refine ih.bind (E := fun es calls es' => calls = [] ∧ es' = e :: es)
        (fun es => follows_pure ⟨rfl, rfl⟩) ?_
      rintro front back es es' rfl ⟨rfl, rfl⟩
      rw [List.append_nil]
    refine (follows_ready x).bind (fun _ => (follows_evaluate x s).bind hrest
      (F := fun calls es => es = (s :: subs).zipWith (Evaluation.ofLog c.timing)
        (phaseLogs calls)) ?_) ?_
    · rintro front back e es ⟨log, hlog, rfl⟩ rfl
      rw [phaseLogs_append, hlog]
      rfl
    · rintro front back _ es hfront rfl
      rw [phaseLogs_append, hfront, List.nil_append]

theorem makes_identify : Makes (identify x) (identify x.recorded) fun _ made e _ =>
    (∃ log, Whole [.phase Identity.bracket] (made.map Exchange.call) ∧
      phaseLogs (made.map Exchange.call) = [log] ∧
      ((∃ i, Identity.ofLog log = .ok i ∧ e = .done i) ∨
        ∃ error, Identity.ofLog log = .error error ∧ e = .failed (.identity error))) ∨
    Cut [.phase Identity.bracket] (made.map Exchange.call) e := by
  refine Makes.bind (R := fun log _ made e _ => made = [] ∧
      ((∃ i, Identity.ofLog log = .ok i ∧ e = .done i) ∨
        ∃ error, Identity.ofLog log = .error error ∧ e = .failed (.identity error)))
    (follows_phase x Identity.bracket) (fun log => ?_) ?_ ?_ ?_
  · split
    · rename_i i hi
      exact makes_pure fun _ => ⟨rfl, Or.inl ⟨i, hi, rfl⟩⟩
    · rename_i error herror
      exact makes_throw fun _ => ⟨rfl, Or.inr ⟨error, herror, rfl⟩⟩
  · rintro s s' s'' front back log e (⟨log', hwhole, hlogs, heq⟩ | hcut) ⟨rfl, hid⟩
    · cases heq
      rw [List.append_nil]
      exact Or.inl ⟨log, hwhole, hlogs, hid⟩
    · exact absurd rfl hcut.ne_done
  · rintro s s' front error (⟨a, -, -, heq⟩ | hcut)
    · cases heq
    · exact Or.inr hcut.failed
  · rintro s s' front (⟨a, -, -, heq⟩ | hcut)
    · cases heq
    · exact Or.inr hcut.stalled

/-- The tests of identified boards. -/
theorem follows_tests (i : Identity) : Follows
    (evaluateAll x c Subsystem.executionOrder >>= fun es => pure (BoardTest.mk i es))
    (evaluateAll x.recorded c Subsystem.executionOrder >>= fun es => pure (BoardTest.mk i es))
    (plan c (Subsystem.executionOrder.map Subsystem.bracket)) fun calls t =>
      t = ⟨i, Subsystem.executionOrder.zipWith (Evaluation.ofLog c.timing) (phaseLogs calls)⟩ := by
  rw [← List.append_nil (plan c _)]
  refine (follows_evaluateAll x _).bind
    (E := fun es calls t => calls = [] ∧ t = BoardTest.mk i es)
    (fun es => follows_pure ⟨rfl, rfl⟩) ?_
  rintro front back es t rfl ⟨rfl, rfl⟩
  rw [List.append_nil]

/-- What follows the first gate. -/
theorem makes_identify_tests : Makes
    (identify x >>= fun i => evaluateAll x c Subsystem.executionOrder >>= fun es =>
      pure (BoardTest.mk i es))
    (identify x.recorded >>= fun i => evaluateAll x.recorded c Subsystem.executionOrder >>=
      fun es => pure (BoardTest.mk i es))
    fun _ made e _ => Conclusion c [.phase Identity.bracket] (made.map Exchange.call) e := by
  refine (makes_identify x).bind (follows_tests x) ?_ ?_ ?_
  · rintro s s' s'' front back i e (⟨log, hwhole, hlogs, ⟨j, hid, heq⟩ | ⟨_, -, heq⟩⟩ | hcut) hback
    · cases heq
      rw [List.map_append]
      have hall : phaseLogs (front.map Exchange.call ++ back.map Exchange.call) =
          log :: phaseLogs (back.map Exchange.call) := by
        rw [phaseLogs_append, hlogs]
        rfl
      rcases hback with ⟨t, hrest, rfl, rfl⟩ | hcut
      · exact .passed (hwhole.append hrest) hall hid
      · refine .cut (.after hwhole hcut) fun log' logs heq => ?_
        rw [hall, List.cons.injEq] at heq
        exact ⟨i, heq.1 ▸ hid⟩
    · cases heq
    · exact absurd rfl hcut.ne_done
  · rintro s s' front error (⟨log, hwhole, hlogs, ⟨i, -, heq⟩ | ⟨error', hid, heq⟩⟩ | hcut)
    · cases heq
    · cases heq
      exact .unidentified hwhole hlogs hid
    · exact .cut hcut.failed.weaken (by simp [hcut.phaseLogs_eq_nil])
  · rintro s s' front (⟨log, -, -, ⟨i, -, heq⟩ | ⟨error, -, heq⟩⟩ | hcut)
    · cases heq
    · cases heq
    · exact .cut hcut.stalled.weaken (by simp [hcut.phaseLogs_eq_nil])

/-- **A test follows its plan up to the first call that does not succeed.** -/
theorem makes_run : Makes (run x c) (run x.recorded c) fun _ made e _ =>
    Conclusion c (plan c [Identity.bracket]) (made.map Exchange.call) e := by
  rw [plan, List.flatMap_singleton]
  refine Makes.bind (follows_ready x) (fun _ => makes_identify_tests x) ?_ ?_ ?_
  · rintro s s' s'' front back _ e (⟨_, hwhole, hlogs, -⟩ | hcut) hback
    · rw [List.map_append]
      exact hback.after hwhole hlogs
    · exact absurd rfl hcut.ne_done
  · rintro s s' front error (⟨_, -, -, heq⟩ | hcut)
    · cases heq
    · exact .cut hcut.failed.weaken.weaken (by simp [phaseLogs_gate hcut.along])
  · rintro s s' front (⟨_, -, -, heq⟩ | hcut)
    · cases heq
    · exact .cut hcut.stalled.weaken.weaken (by simp [phaseLogs_gate hcut.along])

end Course

/-! ## The outcome -/

/-- The logs of a test that went through: one of the first phase and one of each subsystem. -/
theorem exists_phaseLogs
    (h : Whole
      (plan c [Identity.bracket] ++ plan c (Subsystem.executionOrder.map Subsystem.bracket))
      calls) : ∃ hwInfo lin uart gpio can, phaseLogs calls = [hwInfo, lin, uart, gpio, can] := by
  have hlength : (phaseLogs calls).length = 5 := by
    rw [h.length_phaseLogs]
    unfold plan gate
    split <;> rfl
  generalize phaseLogs calls = logs at hlength
  match logs, hlength with
  | [hwInfo, lin, uart, gpio, can], _ => exact ⟨hwInfo, lin, uart, gpio, can, rfl⟩

/-- **Only errors stop a board test, and they stop it at once.** A test calls its executor along
the plan, and concludes as `Conclusion` says. If it went through, every subsystem was evaluated with
the log of its own phase and under its own bounds; the verdict is that of these logs, not of the
first one; and the report lists the identities first and then each evaluation once. -/
theorem only_errors_stop_a_test {τ : Type} (x : Executor (Steps τ)) (c : Config) (s : τ) :
    ∃ made outcome s', (run x c).run s = (outcome, s') ∧
      (run x.recorded c).run (s, []) = (outcome, s', made) ∧
      Conclusion c (plan c [Identity.bracket]) (made.map Exchange.call) (.ofOutcome outcome) ∧
      ∀ t, outcome = some (.ok t) → ∃ hwInfo lin uart gpio can,
        phaseLogs (made.map Exchange.call) = [hwInfo, lin, uart, gpio, can] ∧
        Identity.ofLog hwInfo = .ok t.identity ∧
        t.evaluations = [⟨.lin, lin, Evaluation.Lin.findings c.timing.lin lin⟩,
          ⟨.uart, uart, Evaluation.Uart.findings c.timing.uart uart⟩,
          ⟨.gpio, gpio, Evaluation.Gpio.findings c.timing.gpio gpio⟩,
          ⟨.can, can, Evaluation.Can.findings c.timing.can can⟩] ∧
        (t.hasErrors = true ↔
          ∃ p ∈ [(Subsystem.lin, lin), (.uart, uart), (.gpio, gpio), (.can, can)],
            ¬Evaluation.Passes c.timing p.1 p.2 ∨ ∃ e ∈ p.2, e.level = .err) ∧
        t.summaries = [t.identity.summary, (Evaluation.ofLog c.timing .gpio gpio).summary,
          (Evaluation.ofLog c.timing .uart uart).summary,
          (Evaluation.ofLog c.timing .can can).summary,
          (Evaluation.ofLog c.timing .lin lin).summary] ∧
        t.transcripts = [t.identity.transcript, (Evaluation.ofLog c.timing .gpio gpio).transcript,
          (Evaluation.ofLog c.timing .uart uart).transcript,
          (Evaluation.ofLog c.timing .can can).transcript,
          (Evaluation.ofLog c.timing .lin lin).transcript] := by
  obtain ⟨made, outcome, s', hplain, hwork, hend⟩ := makes_run (c := c) x s []
  refine ⟨made, outcome, s', hplain, hwork, hend, ?_⟩
  rintro t rfl
  -- a test that was cut short has no result, so the plan was carried out and has its five phases
  cases hend with
  | passed hplan hlogs hid =>
    obtain ⟨hwInfo, lin, uart, gpio, can, hfive⟩ := exists_phaseLogs hplan
    rw [hfive, List.cons.injEq] at hlogs
    obtain ⟨rfl, rfl⟩ := hlogs
    refine ⟨hwInfo, lin, uart, gpio, can, hfive, hid, rfl, ?_, rfl, rfl⟩
    have hevaluations : Subsystem.executionOrder.zipWith (Evaluation.ofLog c.timing)
        [lin, uart, gpio, can] =
          [(Subsystem.lin, lin), (.uart, uart), (.gpio, gpio), (.can, can)].map
            fun p => Evaluation.ofLog c.timing p.1 p.2 := rfl
    rw [hasErrors, hevaluations, List.any_map, List.any_eq_true]
    exact exists_congr fun p => and_congr_right fun _ => Evaluation.hasErrors_ofLog
  | cut hcut hid => exact absurd rfl hcut.ne_done

end BoardTest

end BoardBench
