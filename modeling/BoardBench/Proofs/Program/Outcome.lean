import BoardBench.Proofs.Program.Views

/-!
# Outcomes — exit code, printed text and saved report agree

Whoever runs the program learns how the board did in three ways: by the exit code, which comes of
the evaluations in the order of execution; by the printed results, which list the summaries in the
order of the report; and by the file that the report is saved to. **All three say the same, at
whatever point the run fails** (`Program.exit_printout_and_report_agree`).

A run that was asked for goes through steps of which nothing is seen (`Program.testing`), then saves
the report, and then prints. So it ends in one of three ways (`Program.Ends`), and each of them says
all there is to be seen.

The run is cut where the report is written and not at the steps of the source, as this is the only
cut that can be seen from outside. In front of it all steps are alike: each may fail, and whichever
does, nothing was written and nothing printed. Behind it nothing can fail any more. So there are
three constructors of `Ends` for a dozen points at which a run may break off.

Requests for help are kept out by a hypothesis. They succeed without a test, so that "success" means
something else there.
-/

set_option autoImplicit false

namespace BoardBench

/-- The first line of a summary, which gives the verdict. -/
def Report.firstLine (summary : String) : String :=
  String.ofList (summary.toList.takeWhile (· ≠ '\n'))

/-- A report is never empty. -/
theorem Report.encode_ne_nil (r : Report) : Text.encode (r.results ++ r.logs) ≠ [] := by
  intro heq
  have hfirst : '\n' ∈ (r.results ++ r.logs).toList := by simp [Report.results, Report.block]
  rw [Text.encode, List.flatMap_eq_nil_iff] at heq
  exact absurd (heq '\n' hfirst) (by decide)

namespace Evaluation

theorem firstLine_summary (e : Evaluation) :
    Report.firstLine e.summary =
      e.subsystem.label ++ ": " ++ if e.hasErrors then "ERROR" else "OK" := by
  -- the verdict holds no line feed, and there are notes behind it
  have hverdict : (e.subsystem.label ++ ": " ++ if e.hasErrors then "ERROR" else "OK").toList.all
      (· ≠ '\n') = true := by
    cases e.subsystem <;> cases e.hasErrors <;> decide
  have hnotes : ∃ note notes, indented e.notes = note :: notes := by
    refine List.exists_cons_of_ne_nil ?_
    simp [indented, notes, closingNotes]
  obtain ⟨note, notes, hnotes⟩ := hnotes
  rw [summary, hnotes, Text.joined, String.intercalate_cons_cons, Report.firstLine]
  generalize e.subsystem.label ++ ": " ++ (if e.hasErrors then "ERROR" else "OK") = verdict at *
  rw [String.toList_append, String.toList_append, List.append_assoc,
    List.takeWhile_append_of_pos (List.all_eq_true.1 hverdict)]
  simp

/-- The verdict is good iff nothing is wrong. -/
theorem firstLine_summary_eq_ok_iff {e : Evaluation} :
    Report.firstLine e.summary = e.subsystem.label ++ ": OK" ↔ e.hasErrors = false := by
  rw [firstLine_summary]
  cases e.subsystem <;> cases e.hasErrors <;> decide

end Evaluation

namespace Program

variable {W : Type} {h : Host (Steps W)} {v : View W} {o : Options} {w w' : W} {c : Config}
  {t : BoardTest} {created : Stamp}

/-! ## Up to the report -/

/-- The configuration is loaded, if there is a file of it, and changed as the options say. -/
def Loads (h : Host (Steps W)) (o : Options) (w : W) (c : Config) (w' : W) : Prop :=
  match o.config with
  | none => c = o.override {} ∧ w' = w
  | some path => ∃ bytes loaded, Yields (h.storage.read path) w (.ok bytes) w' ∧
      Config.ofBytes path bytes = .ok loaded ∧ c = o.override loaded

/-- All goes well up to the instant at which the report is to be written: the configuration is
loaded, both ports are opened, both inputs are cleared, and the board test `t` is run to its end. -/
def Tests (h : Host (Steps W)) (o : Options) (w : W) (c : Config) (t : BoardTest)
    (created : Stamp) (w' : W) : Prop :=
  ∃ w₁ w₂ w₃ w₄ w₅, Loads h o w c w₁ ∧
    Yields (h.openPort c.serial .first o.firstPort) w₁ (.ok ()) w₂ ∧
    Yields (h.openPort c.serial .second o.secondPort) w₂ (.ok ()) w₃ ∧
    Yields h.clearInput w₃ (.ok ()) w₄ ∧
    Yields (BoardTest.run (h.executor c) c).run w₄ (.ok t) w₅ ∧
    Yields h.localTime w₅ created w'

/-- The report of a test is written to the file at `path`, which leaves the files as in `saved`. -/
def Saves (files : Tree) (c : Config) (r : Report) (path : String) (saved : Tree) : Prop :=
  r.save Tree.storage c.report.outputDir files = (.ok path, saved)

theorem Saves.unique {files saved saved' : Tree} {r : Report} {path path' : String}
    (hs : Saves files c r path saved) (hs' : Saves files c r path' saved') :
    path = path' ∧ saved = saved' := by
  have heq : @Eq (Except BenchError String × Tree) (.ok path, saved) (.ok path', saved') :=
    hs.symm.trans hs'
  simpa using heq

/-- What the program does up to there. -/
def testing (h : Host (Steps W)) (o : Options) :
    ExceptT Fatal (Steps W) (Config × BoardTest × Stamp) := do
  let c ← configure h o
  attach h c .first o.firstPort
  attach h c .second o.secondPort
  step "Failed to clear serial input" h.clearInput
  let test ← step "Board test aborted" (BoardTest.run (h.executor c) c).run
  let created ← ExceptT.lift h.localTime
  pure (c, test, created)

/-- How the program goes on from there. -/
def saving (h : Host (Steps W)) (c : Config) (t : BoardTest) (created : Stamp) :
    ExceptT Fatal (Steps W) (BoardTest × Report × String) := do
  let path ← step "Failed to save results" ((t.report created).save h.storage c.report.outputDir)
  pure (t, t.report created, path)

theorem work_eq : work h o = testing h o >>= fun (c, t, created) => saving h c t created := by
  simp [work, testing, saving]

theorem step_run {α : Type} (context : String) (act : Steps W (Except BenchError α)) (w : W) :
    (step context act).run w =
      match act w with
      | (some (.ok a), w') => (some (.ok a), w')
      | (some (.error e), w') => (some (.error ⟨context, e.causes⟩), w')
      | (none, w') => (none, w') := by
  unfold step
  rw [ExceptT.run_mk, steps_bind]
  generalize act w = r
  rcases r with ⟨_ | _ | _, w'⟩ <;> rfl

theorem yields_step {α : Type} {context : String} {act : Steps W (Except BenchError α)} {a : α} :
    Yields (step context act).run w (.ok a) w' ↔ Yields act w (.ok a) w' := by
  unfold Yields
  rw [step_run]
  generalize act w = r
  rcases r with ⟨_ | _ | _, w''⟩ <;> simp

theorem yields_configure : Yields (configure h o).run w (.ok c) w' ↔ Loads h o w c w' := by
  unfold configure Loads
  cases o.config with
  | none => rw [yields_run_pure, eq_comm (a := c), eq_comm (a := w')]
  | some path =>
    simp only [yields_run_bind, yields_step, yields_run_pure, Config.load, yields_bind]
    constructor
    · rintro ⟨loaded, w₁, ⟨read, w₂, ⟨outcome, w₃, hread, hload⟩, hok⟩, rfl, rfl⟩
      cases outcome with
      | error f =>
        obtain ⟨rfl, -⟩ := yields_pure.1 hload
        exact absurd (yields_pure.1 hok).1 (by simp)
      | ok bytes =>
        obtain ⟨rfl, rfl⟩ := yields_pure.1 hload
        cases hbytes : Config.ofBytes path bytes with
        | error e =>
          rw [hbytes] at hok
          exact absurd (yields_pure.1 hok).1 (by simp)
        | ok loaded' =>
          rw [hbytes] at hok
          obtain ⟨heq, rfl⟩ := yields_pure.1 hok
          cases heq
          exact ⟨bytes, loaded, hread, hbytes, rfl⟩
    · rintro ⟨bytes, loaded, hread, hbytes, rfl⟩
      refine ⟨loaded, w', ⟨.ok loaded, w', ⟨.ok bytes, w', hread, ?_⟩, ?_⟩, rfl, rfl⟩
      · exact yields_pure.2 ⟨hbytes, rfl⟩
      · exact yields_pure.2 ⟨rfl, rfl⟩

theorem yields_attach {side : Side} {port : String} {u : Unit} :
    Yields (attach h c side port).run w (.ok u) w' ↔
      Yields (h.openPort c.serial side port) w (.ok ()) w' := by
  unfold attach
  rw [yields_step, yields_bind]
  constructor
  · rintro ⟨_ | _, w₁, hopen, hend⟩
    · exact absurd (yields_pure.1 hend).1 (by simp)
    · obtain ⟨-, rfl⟩ := yields_pure.1 hend
      exact hopen
  · intro hopen
    exact ⟨.ok (), w', hopen, yields_pure.2 ⟨rfl, rfl⟩⟩

theorem yields_lift {ε α : Type} {act : Steps W α} {a : α} :
    Yields (ExceptT.lift act : ExceptT ε (Steps W) α).run w (.ok a) w' ↔ Yields act w a w' := by
  rw [ExceptT.run_lift, map_eq_pure_bind, yields_bind]
  constructor
  · rintro ⟨b, w₁, hact, hend⟩
    obtain ⟨heq, rfl⟩ := yields_pure.1 hend
    cases heq
    exact hact
  · intro hact
    exact ⟨a, w', hact, yields_pure.2 ⟨rfl, rfl⟩⟩

theorem yields_testing : Yields (testing h o).run w (.ok (c, t, created)) w' ↔
    Tests h o w c t created w' := by
  unfold testing Tests
  simp only [yields_run_bind, yields_configure, yields_attach, yields_step, yields_lift,
    yields_run_pure]
  constructor
  · rintro ⟨c', w₁, hload, _, w₂, hfirst, _, w₃, hsecond, _, w₄, hclear, t', w₅, hrun, created', w₆,
      htime, heq, rfl⟩
    cases heq
    exact ⟨w₁, w₂, w₃, w₄, w₅, hload, hfirst, hsecond, hclear, hrun, htime⟩
  · rintro ⟨w₁, w₂, w₃, w₄, w₅, hload, hfirst, hsecond, hclear, hrun, htime⟩
    exact ⟨c, w₁, hload, (), w₂, hfirst, (), w₃, hsecond, (), w₄, hclear, t, w₅, hrun, created, w',
      htime, rfl, rfl⟩

/-! ### Nothing is seen of it -/

theorem unseen_step {α : Type} {context : String} {act : Steps W (Except BenchError α)}
    (hact : v.Unseen act) : v.Unseen (step context act).run := by
  refine hact.bind fun outcome => ?_
  cases outcome <;> exact View.unseen_pure

theorem unseen_configure (hs : h.Shows v) : v.Unseen (configure h o).run := by
  unfold configure
  cases o.config with
  | none => exact View.unseen_pure
  | some path =>
    refine (unseen_step (View.Unseen.bind ?_ fun loaded => ?_)).run_bind fun c => View.unseen_pure
    · refine (hs.unseen_read path).bind fun outcome => ?_
      cases outcome <;> exact View.unseen_pure
    · cases loaded <;> exact View.unseen_pure

theorem unseen_attach (hs : h.Shows v) (c : Config) (side : Side) (port : String) :
    v.Unseen (attach h c side port).run := by
  refine unseen_step ((hs.openPort c.serial side port).bind fun outcome => ?_)
  cases outcome <;> exact View.unseen_pure

/-- **Nothing is seen of what the program does before it writes the report.** -/
theorem unseen_testing (hs : h.Shows v) : v.Unseen (testing h o).run := by
  refine (unseen_configure hs).run_bind fun c => (unseen_attach hs c _ _).run_bind fun _ =>
    (unseen_attach hs c _ _).run_bind fun _ => (unseen_step hs.clearInput).run_bind fun _ =>
    (unseen_step (BoardTest.unseen_run (hs.ensureIdle c) (hs.runPhase c))).run_bind fun t => ?_
  have htime : v.Unseen (ExceptT.lift h.localTime : ExceptT Fatal (Steps W) Stamp).run :=
    hs.localTime.bind fun _ => View.unseen_pure
  exact htime.run_bind fun created => View.unseen_pure

/-! ## From the report on -/

/-- What is printed once a report was saved. -/
def closing (t : BoardTest) (r : Report) (path : String) : String :=
  r.results ++ "\n" ++ ("Results saved to: " ++ path ++ "\n") ++ "\n\n\n" ++
    if t.hasErrors then "Test exited with errors!\n" else "Test successful\n"

/-- How the program ends once a report was saved. -/
def verdict (t : BoardTest) : ExitCode :=
  if t.hasErrors then .failure else .success

theorem yields_conclude (hs : h.Shows v) (r : Report) (path : String) (w : W) :
    ∃ w', Yields (conclude h t r path) w (verdict t) w' ∧ v.files w' = v.files w ∧
      v.printed w' = v.printed w ++ closing t r path := by
  obtain ⟨w₁, h₁, hfiles₁, hprinted₁⟩ := hs.print (r.results ++ "\n") w
  obtain ⟨w₂, h₂, hfiles₂, hprinted₂⟩ := hs.print ("Results saved to: " ++ path ++ "\n") w₁
  obtain ⟨w₃, h₃, hfiles₃, hprinted₃⟩ := hs.print "\n\n\n" w₂
  obtain ⟨w₄, h₄, hfiles₄, hprinted₄⟩ :=
    hs.print (if t.hasErrors then "Test exited with errors!\n" else "Test successful\n") w₃
  refine ⟨w₄, ?_, by rw [hfiles₄, hfiles₃, hfiles₂, hfiles₁], ?_⟩
  · refine yields_bind.2 ⟨(), w₁, h₁, yields_bind.2 ⟨(), w₂, h₂, yields_bind.2 ⟨(), w₃, h₃, ?_⟩⟩⟩
    unfold verdict
    split at h₄
    · rename_i herrors
      rw [if_pos herrors, if_pos herrors]
      exact yields_bind.2 ⟨(), w₄, h₄, yields_pure.2 ⟨rfl, rfl⟩⟩
    · rename_i herrors
      rw [if_neg herrors, if_neg herrors]
      exact yields_bind.2 ⟨(), w₄, h₄, yields_pure.2 ⟨rfl, rfl⟩⟩
  · rw [hprinted₄, hprinted₃, hprinted₂, hprinted₁, closing]
    simp only [String.append_assoc]

/-- Nothing is seen of a complaint, and the program does not succeed behind it. -/
theorem complain_fails (hs : h.Shows v) (text : String) (code : ExitCode) (hcode : code ≠ .success)
    (w : W) : let ended : Option ExitCode × W := (h.complain text >>= fun _ => pure code) w
      ended.1 ≠ some .success ∧ v.files ended.2 = v.files w ∧ v.printed ended.2 = v.printed w := by
  have hseen := hs.complain text w
  rw [steps_bind]
  generalize h.complain text w = r at hseen
  rcases r with ⟨_ | _, w'⟩
  · exact ⟨by simp, hseen⟩
  · exact ⟨fun heq => hcode (Option.some.inj heq), hseen⟩

/-- A report is saved, or there is no way to save it. -/
theorem saving_cases (hs : h.Shows v) (c : Config) (t : BoardTest) (created : Stamp) (w : W) :
    ∃ w', v.printed w' = v.printed w ∧
      ((∃ path, Saves (v.files w) c (t.report created) path (v.files w') ∧
          Yields (saving h c t created).run w (.ok (t, t.report created, path)) w') ∨
        (∀ path saved, ¬Saves (v.files w) c (t.report created) path saved) ∧
          ∃ f, Yields (saving h c t created).run w (.error f) w') := by
  obtain ⟨w', hsave, hfiles, hprinted⟩ := hs.save (t.report created) c.report.outputDir w
  refine ⟨w', hprinted, ?_⟩
  unfold Saves
  rcases houtcome : (t.report created).save Tree.storage c.report.outputDir (v.files w)
    with ⟨e | path, saved⟩
  all_goals rw [houtcome] at hsave hfiles
  · refine Or.inr ⟨fun path saved heq => ?_, ⟨"Failed to save results", e.causes⟩, ?_⟩
    · exact absurd (congrArg Prod.fst heq) (by simp)
    · unfold Yields at hsave ⊢
      rw [saving, run_bind, step_run, hsave]
  · refine Or.inl ⟨path, by rw [hfiles], yields_run_bind.2 ⟨path, w', yields_step.2 hsave, ?_⟩⟩
    exact yields_run_pure.2 ⟨rfl, rfl⟩

/-! ## Whole runs -/

section Runs

variable {environment : Option String} {arguments : List String}

/-- The command line asks for a run, and all goes well up to the instant at which the report is to
be written. -/
def Tested (h : Host (Steps W)) (environment : Option String) (arguments : List String) (w : W)
    (c : Config) (t : BoardTest) (created : Stamp) : Prop :=
  ∃ o w', CommandLine.parse environment arguments = .ok (.run o) ∧ Tests h o w c t created w'

theorem Tested.unique {c' : Config} {t' : BoardTest} {created' : Stamp}
    (ht : Tested h environment arguments w c t created)
    (ht' : Tested h environment arguments w c' t' created') :
    c = c' ∧ t = t' ∧ created = created' := by
  obtain ⟨o, w₁, hparse, htests⟩ := ht
  obtain ⟨o', w₂, hparse', htests'⟩ := ht'
  obtain rfl : o = o' := by simpa [hparse] using hparse'
  have heq := ((yields_testing.2 htests).unique (yields_testing.2 htests')).1
  simpa using heq

/-- How a run ends: with an exit code, or none if it never returns, and in a world that it leaves
behind. -/
inductive Ends (h : Host (Steps W)) (v : View W) (environment : Option String)
    (arguments : List String) (w : W) : Option ExitCode → W → Prop
  /-- It did not come to the report. -/
  | aborted {exit : Option ExitCode} {w' : W}
      (hnot : ∀ c t created, ¬Tested h environment arguments w c t created)
      (hexit : exit ≠ some .success) (hfiles : v.files w' = v.files w)
      (hprinted : v.printed w' = v.printed w) : Ends h v environment arguments w exit w'
  /-- The report could not be written. -/
  | unsaved {exit : Option ExitCode} {w' : W} {c : Config} {t : BoardTest} {created : Stamp}
      (ht : Tested h environment arguments w c t created)
      (hnot : ∀ path saved, ¬Saves (v.files w) c (t.report created) path saved)
      (hexit : exit ≠ some .success) (hprinted : v.printed w' = v.printed w) :
      Ends h v environment arguments w exit w'
  /-- The report was written, and the results were printed. -/
  | saved {w' : W} {c : Config} {t : BoardTest} {created : Stamp} {path : String}
      (ht : Tested h environment arguments w c t created)
      (hsaves : Saves (v.files w) c (t.report created) path (v.files w'))
      (hprinted : v.printed w' = v.printed w ++ closing t (t.report created) path) :
      Ends h v environment arguments w (some (verdict t)) w'

theorem carryOut_ends (hs : h.Shows v)
    (hparse : CommandLine.parse environment arguments = .ok (.run o)) (w : W) :
    Ends h v environment arguments w (carryOut h o w).1 (carryOut h o w).2 := by
  have hseen := unseen_testing (o := o) hs w
  have htested : ∀ {c t created}, Tested h environment arguments w c t created →
      ∃ w₁, Yields (testing h o).run w (.ok (c, t, created)) w₁ := by
    rintro c t created ⟨o', w₁, hparse', htests⟩
    obtain rfl : o = o' := by simpa [hparse] using hparse'
    exact ⟨w₁, yields_testing.2 htests⟩
  unfold Yields at htested
  unfold carryOut
  rw [steps_bind, work_eq, run_bind]
  -- the test does not return, fails, or is run to its end
  rcases htesting : (testing h o).run w with ⟨_ | f | ⟨c, t, created⟩, w₁⟩
  all_goals rw [htesting] at hseen htested
  · exact .aborted (fun c t created ht => by simpa using htested ht) (by simp) hseen.1 hseen.2
  · obtain ⟨hexit, hfiles, hprinted⟩ := complain_fails hs f.render .failure (by simp) w₁
    exact .aborted (fun c t created ht => by simpa using htested ht) hexit
      (hfiles.trans hseen.1) (hprinted.trans hseen.2)
  · have ht : Tested h environment arguments w c t created :=
      ⟨o, w₁, hparse, yields_testing.1 htesting⟩
    obtain ⟨w₂, hprinted₂, ⟨path, hsaves, hsaving⟩ | ⟨hsaves, f, hsaving⟩⟩ :=
      saving_cases hs c t created w₁
    all_goals
      unfold Yields at hsaving
      simp only [hsaving]
      rw [hseen.1] at hsaves
    · obtain ⟨w₃, hconclude, hfiles₃, hprinted₃⟩ :=
        yields_conclude (t := t) hs (t.report created) path w₂
      unfold Yields at hconclude
      rw [hconclude]
      exact .saved ht (by rw [hfiles₃]; exact hsaves) (by rw [hprinted₃, hprinted₂, hseen.2])
    · obtain ⟨hexit, -, hprinted⟩ := complain_fails hs f.render .failure (by simp) w₂
      exact .unsaved ht hsaves hexit (hprinted.trans (hprinted₂.trans hseen.2))

/-- **A run that does not ask for help ends in one of three ways.** -/
theorem run_ends (hs : h.Shows v)
    (hasked : CommandLine.parse environment arguments ≠ .ok .help) (w : W) :
    Ends h v environment arguments w (run h environment arguments w).1
      (run h environment arguments w).2 := by
  unfold run
  rcases hparse : CommandLine.parse environment arguments with e | _ | o
  · obtain ⟨hexit, hfiles, hprinted⟩ := complain_fails hs ("error: " ++ CommandLine.message e ++
      "\n\n" ++ CommandLine.usage ++ "\n" ++ hint) .usage (by simp) w
    refine .aborted ?_ hexit hfiles hprinted
    rintro c t created ⟨o, w', hparse', -⟩
    simp [hparse] at hparse'
  · exact absurd hparse hasked
  · exact carryOut_ends hs hparse w

end Runs

/-! ## What the verdicts say -/

theorem verdict_eq_success_iff :
    verdict t = .success ↔ ∀ e ∈ t.evaluations, e.hasErrors = false := by
  unfold verdict BoardTest.hasErrors
  split <;> simp_all

/-- The summaries in the report, by subsystem. -/
theorem summaries_of_evaluations {evaluationOf : Subsystem → Evaluation}
    (hsubsystem : ∀ s, (evaluationOf s).subsystem = s)
    (hevaluations : t.evaluations = Subsystem.executionOrder.map evaluationOf) :
    t.summaries =
      t.identity.summary :: Subsystem.reportOrder.map fun s => (evaluationOf s).summary := by
  have hreported : t.reported = Subsystem.reportOrder.map evaluationOf := by
    simp [BoardTest.reported, BoardTest.evaluation?, hevaluations, Subsystem.reportOrder,
      Subsystem.executionOrder, hsubsystem]
  rw [BoardTest.summaries, hreported, List.map_map]
  rfl

/-- All evaluations are fine iff all verdicts in the report are good. -/
theorem verdict_eq_success_iff_forall {evaluationOf : Subsystem → Evaluation}
    (hsubsystem : ∀ s, (evaluationOf s).subsystem = s)
    (hevaluations : t.evaluations = Subsystem.executionOrder.map evaluationOf) :
    verdict t = .success ↔
      ∀ s, Report.firstLine (evaluationOf s).summary = s.label ++ ": OK" := by
  have hline : ∀ s, Report.firstLine (evaluationOf s).summary = s.label ++ ": OK" ↔
      (evaluationOf s).hasErrors = false := by
    intro s
    rw [← Evaluation.firstLine_summary_eq_ok_iff, hsubsystem]
  simp only [verdict_eq_success_iff, hline, hevaluations, List.forall_mem_map]
  refine ⟨fun hall s => hall s ?_, fun hall s _ => hall s⟩
  cases s <;> decide

theorem verdict_eq_failure_iff_exists {evaluationOf : Subsystem → Evaluation}
    (hsubsystem : ∀ s, (evaluationOf s).subsystem = s)
    (hevaluations : t.evaluations = Subsystem.executionOrder.map evaluationOf) :
    verdict t = .failure ↔
      ∃ s, Report.firstLine (evaluationOf s).summary = s.label ++ ": ERROR" := by
  have hnot : verdict t = .failure ↔ ¬verdict t = .success := by
    unfold verdict
    split <;> simp
  rw [hnot, verdict_eq_success_iff_forall hsubsystem hevaluations, not_forall]
  refine exists_congr fun s => ?_
  rw [Evaluation.firstLine_summary, hsubsystem]
  cases s <;> cases (evaluationOf _).hasErrors <;> decide

/-- **Exit code, printed text and saved report agree.** Of a run that does not ask for help this
holds, in every world whose host shows its files and its standard output. It succeeds iff all goes
well up to the report, the report is written, and no evaluation has errors. If it does not come to
the report, all files and directories are as before; if the report is not written, nothing is
printed. Otherwise the results are printed with the path of the report, where the file holds the
results and the logs, unless it is a terminal that took them; and the exit code is what the verdicts
of the four summaries in the results say. -/
theorem exit_printout_and_report_agree (hs : h.Shows v) {environment : Option String}
    {arguments : List String} (hasked : CommandLine.parse environment arguments ≠ .ok .help)
    (w : W) :
    let ended : Option ExitCode × W := run h environment arguments w
    (ended.1 = some .success ↔ ∃ c t created path saved,
      Tested h environment arguments w c t created ∧
        Saves (v.files w) c (t.report created) path saved ∧
        ∀ e ∈ t.evaluations, e.hasErrors = false) ∧
    ((∀ c t created, ¬Tested h environment arguments w c t created) →
      v.files ended.2 = v.files w) ∧
    ((∀ c t created path saved, Tested h environment arguments w c t created →
      ¬Saves (v.files w) c (t.report created) path saved) → v.printed ended.2 = v.printed w) ∧
    ∀ c t created path saved, Tested h environment arguments w c t created →
      Saves (v.files w) c (t.report created) path saved →
      ∃ evaluationOf : Subsystem → Evaluation, (∀ s, (evaluationOf s).subsystem = s) ∧
        t.evaluations = Subsystem.executionOrder.map evaluationOf ∧
        (t.report created).results = Report.block "||   TEST RESULTS   ||" (Text.joined "\n"
          (t.identity.summary :: Subsystem.reportOrder.map fun s => (evaluationOf s).summary)) ∧
        v.printed ended.2 = v.printed w ++ closing t (t.report created) path ∧
        v.files ended.2 = saved ∧
        (saved.read path =
            .ok (Text.encode ((t.report created).results ++ (t.report created).logs)) ∨
          saved.LeadsToTerminal path) ∧
        (ended.1 = some .success ↔
          ∀ s, Report.firstLine (evaluationOf s).summary = s.label ++ ": OK") ∧
        (ended.1 = some .failure ↔
          ∃ s, Report.firstLine (evaluationOf s).summary = s.label ++ ": ERROR") := by
  intro ended
  have hended := run_ends hs hasked w
  -- from here on it does not matter how the run came to its end
  change Ends h v environment arguments w ended.1 ended.2 at hended
  generalize ended = e at hended
  obtain ⟨exit, w'⟩ := e
  cases hended with
  | aborted hnot hexit hfiles hprinted =>
    refine ⟨⟨fun heq => absurd heq hexit, ?_⟩, fun _ => hfiles, fun _ => hprinted, ?_⟩
    · rintro ⟨c, t, created, path, saved, ht, -⟩
      exact absurd ht (hnot _ _ _)
    · exact fun c t created path saved ht => absurd ht (hnot _ _ _)
  | unsaved ht hnot hexit hprinted =>
    have hnot' : ∀ {c t created path saved}, Tested h environment arguments w c t created →
        ¬Saves (v.files w) c (t.report created) path saved := by
      intro c t created path saved ht'
      obtain ⟨rfl, rfl, rfl⟩ := ht.unique ht'
      exact hnot path saved
    refine ⟨⟨fun heq => absurd heq hexit, ?_⟩, fun hnone => ?_, fun _ => hprinted, ?_⟩
    · rintro ⟨c, t, created, path, saved, ht', hsaves, -⟩
      exact absurd hsaves (hnot' ht')
    · exact absurd ht (hnone _ _ _)
    · exact fun c t created path saved ht' hsaves => absurd hsaves (hnot' ht')
  | saved ht hsaves hprinted =>
    refine ⟨⟨fun heq => ?_, ?_⟩, fun hnone => ?_, fun hnone => ?_, ?_⟩
    · exact ⟨_, _, _, _, _, ht, hsaves, verdict_eq_success_iff.1 (Option.some.inj heq)⟩
    · rintro ⟨c, t, created, path, saved, ht', -, hclean⟩
      obtain ⟨rfl, rfl, rfl⟩ := ht.unique ht'
      exact congrArg some (verdict_eq_success_iff.2 hclean)
    · exact absurd ht (hnone _ _ _)
    · exact absurd hsaves (hnone _ _ _ _ _ ht)
    · intro c t created path saved ht' hsaves'
      obtain ⟨rfl, rfl, rfl⟩ := ht.unique ht'
      obtain ⟨rfl, rfl⟩ := hsaves.unique hsaves'
      obtain ⟨o, w₆, -, w₁, w₂, w₃, w₄, w₅, -, -, -, -, hrun, -⟩ := ht
      obtain ⟨evaluationOf, hsubsystem, hevaluations⟩ := BoardTest.evaluations_of_run hrun
      refine ⟨evaluationOf, hsubsystem, hevaluations, ?_, hprinted, rfl,
        (Report.read_save hsaves).2, ?_, ?_⟩
      · have hsummaries := summaries_of_evaluations hsubsystem hevaluations
        rw [← hsummaries]
        rfl
      · rw [Option.some.injEq]
        exact verdict_eq_success_iff_forall hsubsystem hevaluations
      · rw [Option.some.injEq]
        exact verdict_eq_failure_iff_exists hsubsystem hevaluations

/-! ## Rehearsals -/

/-- The host of a workbench, with boards that have their part by heart: the log of every phase is
settled. -/
def rehearsal (logs : Bracket → List Event) : Host Workbench.Work :=
  { Workbench.host with
    executor := fun _ => { ensureIdle := pure (.ok ()), runPhase := fun b => pure (.ok (logs b)) } }

theorem rehearsal_shows (logs : Bracket → List Event) : (rehearsal logs).Shows Workbench.view :=
  { Workbench.host_shows with
    ensureIdle := fun _ => View.unseen_pure
    runPhase := fun _ _ => View.unseen_pure }

/-- In a rehearsal the settled logs are evaluated. -/
theorem yields_rehearsal {logs : Bracket → List Event} {i : Identity}
    (hid : Identity.ofLog (logs Identity.bracket) = .ok i) (c : Config) (w : Workbench) :
    Yields (BoardTest.run ((rehearsal logs).executor c) c).run w
      (.ok ⟨i, Subsystem.executionOrder.map fun s => Evaluation.ofLog c.timing s (logs s.bracket)⟩)
      w := by
  have hready : Yields (BoardTest.ready ((rehearsal logs).executor c) c).run w (.ok ()) w := by
    unfold BoardTest.ready
    split <;> rfl
  have hidentify : Yields (BoardTest.identify ((rehearsal logs).executor c)).run w (.ok i) w := by
    refine yields_run_bind.2 ⟨logs Identity.bracket, w, rfl, ?_⟩
    rw [hid]
    rfl
  have hevaluate : ∀ subs, Yields (BoardTest.evaluateAll ((rehearsal logs).executor c) c subs).run w
      (.ok (subs.map fun s => Evaluation.ofLog c.timing s (logs s.bracket))) w := by
    intro subs
    induction subs with
    | nil => rfl
    | cons s rest ih =>
      exact yields_run_bind.2 ⟨(), w, hready, yields_run_bind.2 ⟨_, w, rfl,
        yields_run_bind.2 ⟨_, w, ih, rfl⟩⟩⟩
  exact yields_run_bind.2 ⟨(), w, hready, yields_run_bind.2 ⟨i, w, hidentify,
    yields_run_bind.2 ⟨_, w, hevaluate _, rfl⟩⟩⟩

/-- The logs of boards with which nothing is wrong. -/
def passing (b : Bracket) : List Event :=
  if b = Subsystem.lin.bracket then
    [⟨100, .inf, "sut", "serial@40004800 sending: 1"⟩,
      ⟨101, .inf, "tester", "serial@40004800 received 1"⟩]
  else if b = Subsystem.uart.bracket then
    [⟨100, .inf, "tester", "serial@40013800 sending: a"⟩,
      ⟨101, .inf, "sut", "serial@40013800 received a"⟩,
      ⟨102, .inf, "tester", "serial@40013800 received a"⟩]
  else if b = Subsystem.gpio.bracket then
    [⟨100, .inf, "sut", "gpio@48000800 pin 1 on"⟩,
      ⟨101, .inf, "tester", "gpio@48000800 pin 1 rising"⟩,
      ⟨111, .inf, "tester", "gpio@48000800 pin 1 falling"⟩]
  else if b = Subsystem.can.bracket then
    [⟨100, .inf, "sut", "can@40006400: frame id: 1, data: 1"⟩,
      ⟨101, .inf, "tester", "can@40006400: frame id: 1, data: 1"⟩,
      ⟨150, .inf, "sut", "can@40006400: frame id: 1, data: 2"⟩,
      ⟨151, .inf, "tester", "can@40006400: frame id: 1, data: 2"⟩]
  else [⟨1, .inf, "sut", "id: 0a1b"⟩, ⟨1, .inf, "tester", "id: 2c3d"⟩]

theorem passing_passes (s : Subsystem) :
    (Evaluation.ofLog {} s (passing s.bracket)).hasErrors = false := by
  cases s <;> decide +kernel

/-- The test of these boards. -/
def rehearsed : BoardTest where
  identity := ⟨passing Identity.bracket, ⟨1, .inf, "sut", "id: 0a1b"⟩,
    ⟨1, .inf, "tester", "id: 2c3d"⟩⟩
  evaluations := Subsystem.executionOrder.map fun s => Evaluation.ofLog {} s (passing s.bracket)

def rehearsedAt : Stamp := ⟨2024, 5, 17, 9, 3, 7, 0⟩

/-- The name of its report. -/
def rehearsedName : String := "2024-05-17T09:03:07.000000_ardep_board_0a1b_hw_test_results.txt"

/-- A workbench with two boards, and with some more entries in its tree. -/
def stage (more : List (Place × Entry)) : Workbench where
  tree := { entries := (["sut"], .terminal 0) :: (["tester"], .terminal 1) :: more }
  boards := ["sut", "tester"].map fun port => { port := { name := port, readTimeoutMs := 10000 } }
  localTime := rehearsedAt

theorem tested_stage (more : List (Place × Entry)) :
    Tested (rehearsal passing) none ["sut", "tester"] (stage more) {} rehearsed rehearsedAt := by
  have hid : Identity.ofLog (passing Identity.bracket) = .ok rehearsed.identity := by
    decide +kernel
  refine ⟨{ firstPort := "sut", secondPort := "tester" },
    { stage more with first := some 0, second := some 1 }, by decide, stage more,
    { stage more with first := some 0 }, { stage more with first := some 0, second := some 1 },
    { stage more with first := some 0, second := some 1 },
    { stage more with first := some 0, second := some 1 },
    ⟨rfl, rfl⟩, rfl, rfl, rfl, yields_rehearsal hid _ _, rfl⟩

theorem saves_stage {more : List (Place × Entry)} {saved : Tree}
    (h : (stage more).tree.write ("./" ++ rehearsedName)
      (Text.encode (rehearsed.report rehearsedAt).contents) = .ok saved) :
    Saves (stage more).tree {} (rehearsed.report rehearsedAt) ("./" ++ rehearsedName) saved := by
  have hname : (rehearsed.report rehearsedAt).pathIn Path.stay = "./" ++ rehearsedName := by
    decide +kernel
  have hdirectory : (stage more).tree.makeDirectories Path.stay = (.ok (), (stage more).tree) :=
    Tree.makeDirectories_stay rfl
  change (rehearsed.report rehearsedAt).save Tree.storage Path.stay _ = _
  rw [Report.save_tree, hdirectory, hname]
  simp only [h]

/-- A rehearsal of a test that passes succeeds. -/
theorem rehearsal_succeeds :
    CommandLine.parse none ["sut", "tester"] ≠ .ok .help ∧
    (run (rehearsal passing) none ["sut", "tester"] (stage [])).1 = some .success := by
  have hasked : CommandLine.parse none ["sut", "tester"] ≠ .ok .help := by decide
  have hlocate : (stage []).tree.locate ("./" ++ rehearsedName) = .ok ⟨[rehearsedName], false⟩ := by
    decide +kernel
  have hsaves := saves_stage (Tree.write_new hlocate (by decide +kernel))
  refine ⟨hasked, (exit_printout_and_report_agree (rehearsal_shows passing) hasked _).1.2
    ⟨{}, rehearsed, rehearsedAt, _, _, tested_stage [], hsaves, fun e he => ?_⟩⟩
  obtain ⟨s, -, rfl⟩ := List.mem_map.1 he
  exact passing_passes s

/-- **A request for help succeeds without any test, and a terminal keeps nothing of a report.** -/
theorem help_succeeds_and_terminals_keep_nothing :
    ((run Workbench.host none ["--help"] (stage [])).1 = some .success ∧
      ∀ c t created, ¬Tested Workbench.host none ["--help"] (stage []) c t created) ∧
    ∃ more c t created path saved,
      Tested (rehearsal passing) none ["sut", "tester"] (stage more) c t created ∧
      Saves (stage more).tree c (t.report created) path saved ∧
      saved.read path ≠
        .ok (Text.encode ((t.report created).results ++ (t.report created).logs)) := by
  have hhelp : CommandLine.parse none ["--help"] = .ok .help := by decide
  have hlocate : (stage [([rehearsedName], .terminal 2)]).tree.locate ("./" ++ rehearsedName) =
      .ok ⟨[rehearsedName], false⟩ := by
    decide +kernel
  have hterminal : (stage [([rehearsedName], .terminal 2)]).tree.get? [rehearsedName] =
      some (.terminal 2) := by
    decide +kernel
  have hread : (stage [([rehearsedName], .terminal 2)]).tree.read ("./" ++ rehearsedName) =
      .ok [] := by
    simp [Tree.read, hlocate, hterminal]
  refine ⟨⟨rfl, ?_⟩, [([rehearsedName], .terminal 2)], {}, rehearsed, rehearsedAt, _, _,
    tested_stage _, saves_stage (Tree.write_terminal hlocate hterminal), ?_⟩
  · rintro c t created ⟨o, w', hparse, -⟩
    simp [hhelp] at hparse
  · rw [hread, Ne, Except.ok.injEq]
    exact (Report.encode_ne_nil _).symm

end Program

end BoardBench
