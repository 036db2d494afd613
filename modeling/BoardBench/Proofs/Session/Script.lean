import BoardBench.Proofs.BoardTest.Calls
import BoardBench.Proofs.Event.Wire
import BoardBench.Proofs.Phase.Instant
import BoardBench.Proofs.Session.Gate
import BoardBench.Session.Executor

/-!
# Scripts — a board test against two devices that keep to one

A device keeps to a script if it answers the start command of each phase with the echo of the
command and the wire forms of the scripted events, the stop message last. `ScriptedLink.Armed` says
of a link without delay that it will do so in the phases still to come, and that it will let the
bench through the gates before them. An armed link answers a phase (`Session.runPhase_script`), or
lets the bench through a gate, and is armed for the rest.

So the whole test goes through, and **every log in it mixes what the two scripts have for that
phase** (`Session.runTests_script`): no line of one phase gets into another one.

`Armed` counts the gates that are still to come and lists the phases that are, since both are used
up from the front and the replies for them lie on the same link. That a gate leaves the phases alone
and a phase the gates is where it matters that all start commands differ, and differ from the
question (`Planned`). A phase is answered by its first batch, and what comes behind it on the link
is of no importance, as no phase of a test comes twice.

`Comes` is the rule of sequence for work that cannot be given up. There is no rule for the third way
to end: without a limit and without a hanging link, nothing in a test stalls.
-/

set_option autoImplicit false

namespace BoardBench

/-! ## The batch of a phase -/

namespace Bracket

/-- The start command is a word that no event in wire form can be mistaken for. -/
structure Plain (b : Bracket) : Prop where
  ne : b.start ≠ ""
  head : ∀ c, b.start.toList.head? = some c → c ≠ '['

/-- Events that a device may report in a phase: legible ones, up to the only stop message. -/
structure Ends (b : Bracket) (es : List Event) : Prop where
  legible : ∀ e ∈ es, e.Legible
  stops : ∃ front last, es = front ++ [last] ∧ last.payload = b.stop ∧
    ∀ e ∈ front, e.payload ≠ b.stop

/-- The batch that answers the start command: its echo, and the events. -/
def batch (b : Bracket) (es : List Event) : List String :=
  b.start :: es.map Event.wire

end Bracket

namespace Incoming

variable {b : Bracket} {e : Event} {port : String}

theorem heard_echo (hb : b.Plain) : (Incoming.line b.start).heard b port = .skipped := by
  have hne : b.start.isEmpty = false := by simpa using hb.ne
  show Heard.ofLine b port b.start = .skipped
  simp [Heard.ofLine, hne]

theorem heard_wire (hb : b.Plain) (he : e.Legible) :
    (Incoming.line e.wire).heard b port = .event e := by
  have hhead : e.wire.toList.head? = some '[' := by
    rw [Line.toList_wire]
    rfl
  have hne : e.wire.isEmpty = false := by
    rw [← Bool.not_eq_true, String.isEmpty_iff]
    intro hempty
    rw [hempty] at hhead
    cases hhead
  have hecho : (e.wire == b.start) = false := by
    rw [beq_eq_false_iff_ne]
    intro heq
    rw [heq] at hhead
    exact hb.head '[' hhead rfl
  show Heard.ofLine b port e.wire = .event e
  simp [Heard.ofLine, hne, hecho, Line.parse_wire he]

end Incoming

namespace ScriptedLink

variable {b : Bracket} {l : ScriptedLink} {es : List Event}

theorem passed_of_append {front rest : List Incoming} {i : Incoming}
    (hp : l.pending = front ++ i :: rest) (hfront : ∀ x ∈ front, x.isPassed b l.name = true)
    (hi : i.isPassed b l.name = false) : l.passed b = front.length := by
  rw [passed, hp, List.takeWhile_append_of_pos hfront, List.takeWhile_cons_of_neg (by simp [hi]),
    List.append_nil]

/-- A reader takes a batch off the queue, all of it, and hears the events in it. -/
theorem reads_batch (hb : b.Plain) (he : b.Ends es) (hd : l.delayMs = 0)
    (hp : l.pending = (b.batch es).map .line) :
    l.StopsAtOnce b ∧ l.heardIn b (l.passed b + 1) = es ∧
      l.afterReads (l.passed b + 1) = { l with pending := [] } := by
  obtain ⟨front, last, rfl, hlast, hfront⟩ := he.stops
  have hwire : ∀ e ∈ front ++ [last], (Incoming.line e.wire).heard b l.name = .event e :=
    fun e hmem => Incoming.heard_wire hb (he.legible e hmem)
  have hevent : ∀ e ∈ front ++ [last], (Incoming.line e.wire).event? b l.name = some e := by
    intro e hmem
    simp [Incoming.event?, hwire e hmem]
  -- the echo and all events but the last one are passed
  have hpending : l.pending =
      (.line b.start :: front.map fun e => .line e.wire) ++ [.line last.wire] := by
    rw [hp, Bracket.batch]
    simp
  have hecho : (Incoming.line b.start).heard b l.name = .skipped := Incoming.heard_echo hb
  have hpassed : l.passed b = front.length + 1 := by
    rw [passed_of_append hpending]
    · simp
    · intro x hx
      rcases List.mem_cons.1 hx with rfl | hx
      · simp [Incoming.isPassed, hecho]
      · obtain ⟨e, hmem, rfl⟩ := List.mem_map.1 hx
        simp [Incoming.isPassed, hwire e (List.mem_append_left _ hmem), hfront e hmem]
    · simp [Incoming.isPassed, hwire last (by simp), hlast]
  have hlength : l.pending.length = l.passed b + 1 := by
    rw [hpending, hpassed]
    simp
  refine ⟨⟨hd, .line last.wire, last, ?_, hwire last (by simp)⟩, ?_, ?_⟩
  · rw [hpending, hpassed]
    simp
  · rw [heardIn, ← hlength, List.take_length, hp, Bracket.batch]
    simp only [List.map_cons, List.filterMap_cons, Incoming.event?, hecho, List.map_map,
      List.filterMap_map]
    exact (List.filterMap_congr hevent).trans List.filterMap_some
  · rw [afterReads, ← hlength, List.drop_length]

/-! ## Links that keep to a script -/

/-- A quiet link that will keep to its script: it lets the bench through some gates, if they are
asked for, and answers the start commands of some phases. -/
structure Armed (idle : IdleSettings) (script : Bracket → List Event) (gates : Nat)
    (phases : List Bracket) (l : ScriptedLink) : Prop extends l.Quiet where
  patient : idle.enabled = true →
    Patient (max 1 idle.maxAttempts) gates (l.replies.batches idleCommand)
  answers : ∀ b ∈ phases, ∃ rest, l.replies.batches b.start = b.batch (script b) :: rest

end ScriptedLink

/-- Phases that do not get in each other's way, nor in that of the gates: each has a start command
of its own. -/
structure Planned (phases : List Bracket) : Prop where
  plain : ∀ b ∈ phases, b.Plain
  apart : (idleCommand :: phases.map Bracket.start).Nodup

theorem Planned.start_ne_idle {phases : List Bracket} (h : Planned phases) {b : Bracket}
    (hb : b ∈ phases) : b.start ≠ idleCommand := by
  intro heq
  exact (List.nodup_cons.1 h.apart).1 (heq ▸ List.mem_map_of_mem hb)

theorem Planned.start_ne {phases : List Bracket} {b b' : Bracket} (h : Planned (b :: phases))
    (hb' : b' ∈ phases) : b'.start ≠ b.start := by
  intro heq
  have hnodup := (List.nodup_cons.1 h.apart).2
  exact (List.nodup_cons.1 hnodup).1 (heq ▸ List.mem_map_of_mem hb')

theorem Planned.tail {phases : List Bracket} {b : Bracket} (h : Planned (b :: phases)) :
    Planned phases where
  plain b' hb' := h.plain b' (List.mem_cons_of_mem _ hb')
  apart := by
    obtain ⟨hidle, hrest⟩ := List.nodup_cons.1 h.apart
    refine List.nodup_cons.2 ⟨fun hmem => hidle (List.mem_cons_of_mem _ hmem), ?_⟩
    exact (List.nodup_cons.1 hrest).2

namespace Session

open ScriptedLink

variable {c : Config} {s : Session ScriptedLink} {script : Side → Bracket → List Event}
  {gates : Nat} {b : Bracket} {phases : List Bracket}

def Armed (idle : IdleSettings) (script : Side → Bracket → List Event) (gates : Nat)
    (phases : List Bracket) (s : Session ScriptedLink) : Prop :=
  ∀ side, (s.link side).Armed idle (script side) gates phases

/-- **A phase takes from both links what their scripts have for it**, and nothing else. -/
theorem runPhase_script (hcap : max 1 c.phase.channelCapacity ≤ Phase.queueLimit)
    (htime : 0 < c.phase.timeoutMs) (hplan : Planned (b :: phases))
    (hends : ∀ side, b.Ends (script side b)) (h : s.Armed c.idle script gates (b :: phases)) :
    ∃ log s', s.runPhase c.phase none b = (.done log, s') ∧
      Interleaving (script .first b) (script .second b) log ∧
      s'.Armed c.idle script gates phases := by
  have hread : ∀ side, (s.sent b side).StopsAtOnce b ∧
      (s.sent b side).heardIn b ((s.sent b side).passed b + 1) = script side b ∧
      (s.sent b side).afterReads ((s.sent b side).passed b + 1) =
        { s.sent b side with pending := [] } := by
    intro side
    obtain ⟨rest, hbatches⟩ := (h side).answers b List.mem_cons_self
    refine reads_batch (hplan.plain b List.mem_cons_self) (hends side) (h side).instant ?_
    show (s.link side).pending ++ ((s.link side).replies.next b.start).1.map .line = _
    rw [(h side).drained, Replies.next_fst, hbatches]
    rfl
  obtain ⟨log, s', hrun, hmix, hleft⟩ := runPhase_completes (b := b) (s := s) hcap htime
    fun side => (hread side).1
  rw [(hread .first).2.1, (hread .second).2.1] at hmix
  refine ⟨log, s', hrun, hmix, fun side => ?_⟩
  -- only the batches of this phase's command were touched
  have hkeep : ∀ command, command ≠ b.start →
      (s'.link side).replies.batches command = (s.link side).replies.batches command := by
    intro command hne
    rw [hleft, (hread side).2.2]
    exact Replies.batches_next_of_ne hne _
  refine ⟨⟨?_, ?_⟩, fun hidle => ?_, fun b' hb' => ?_⟩
  · rw [hleft]
    exact (h side).instant
  · rw [hleft, (hread side).2.2]
  · rw [hkeep _ (Ne.symm (hplan.start_ne_idle List.mem_cons_self))]
    exact (h side).patient hidle
  · rw [hkeep _ (hplan.start_ne hb')]
    exact (h side).answers b' (List.mem_cons_of_mem _ hb')

/-- A gate takes the answers to its question from both links, and nothing else. -/
theorem ensureIdle_script (hplan : Planned phases) (hidle : c.idle.enabled = true)
    (h : s.Armed c.idle script (gates + 1) phases) :
    ∃ s', s.ensureIdle (IdleGate.ofSettings c.idle) none = (.done (), s') ∧
      s'.Armed c.idle script gates phases := by
  obtain ⟨s', hrun, hside⟩ :=
    ensureIdle_done (IdleGate.ofSettings c.idle) (fun side => (h side).toQuiet)
      fun side => (h side).patient hidle
  refine ⟨s', hrun, fun side => ?_⟩
  obtain ⟨hsame, hpatient⟩ := hside side
  refine ⟨hsame.quiet, fun _ => hpatient, fun b hb => ?_⟩
  rw [hsame.replies _ (hplan.start_ne_idle hb)]
  exact (h side).answers b hb

/-! ## Work on a session -/

section Work

variable {σ α β : Type}

/-- Work on a session comes to an end, with a result or an error. -/
def Comes (work : ExceptT BenchError (Activity σ) α) (s : Session σ)
    (r : Except BenchError α) (s' : Session σ) : Prop :=
  work.run s = (some r, s')

variable {work : ExceptT BenchError (Activity σ) α} {f : α → ExceptT BenchError (Activity σ) β}
  {s s' s'' : Session σ} {a : α} {e : BenchError} {r : Except BenchError β}

theorem Comes.bind (h : Comes work s (.ok a) s') (hf : Comes (f a) s' r s'') :
    Comes (work >>= f) s r s'' := by
  unfold Comes at h hf ⊢
  rw [run_bind, h]
  exact hf

theorem Comes.bind_error (h : Comes work s (.error e) s') : Comes (work >>= f) s (.error e) s' := by
  unfold Comes at h ⊢
  rw [run_bind, h]

theorem comes_pure (a : α) (s : Session σ) : Comes (pure a) s (.ok a) s := rfl

theorem comes_activity {step : Session σ → Ending BenchError α × Session σ}
    (h : step s = (.done a, s')) : Comes (ExceptT.mk (activity step)) s (.ok a) s' := by
  show activity step s = _
  simp only [activity, h]

theorem comes_activity_failed {step : Session σ → Ending BenchError α × Session σ}
    (h : step s = (.failed e, s')) : Comes (ExceptT.mk (activity step)) s (.error e) s' := by
  show activity step s = _
  simp only [activity, h]

theorem carryOut_of_comes_error (h : Comes work s (.error e) s') :
    s.carryOut work = (.failed e, s') := by
  unfold Comes at h
  simp only [carryOut, h]

theorem carryOut_of_comes (h : Comes work s (.ok a) s') : s.carryOut work = (.done a, s') := by
  unfold Comes at h
  simp only [carryOut, h]

end Work

/-! ## The whole test -/

/-- The gate before a phase is passed, whether it is asked for or not. -/
theorem ready_script (hplan : Planned phases) (h : s.Armed c.idle script (gates + 1) phases) :
    ∃ s', Comes (BoardTest.ready (executor c none) c) s (.ok ()) s' ∧
      s'.Armed c.idle script gates phases := by
  unfold BoardTest.ready
  split
  · rename_i hidle
    obtain ⟨s', hrun, hs'⟩ := ensureIdle_script hplan hidle h
    exact ⟨s', comes_activity hrun, hs'⟩
  · rename_i hidle
    exact ⟨s, comes_pure () s, fun side =>
      ⟨(h side).toQuiet, fun henabled => absurd henabled hidle, (h side).answers⟩⟩

/-- The evaluation of a log that mixes the two scripts. -/
def Evaluates (timing : TimingSettings) (script : Side → Bracket → List Event) (sub : Subsystem)
    (e : Evaluation) : Prop :=
  ∃ log, Interleaving (script .first sub.bracket) (script .second sub.bracket) log ∧
    e = Evaluation.ofLog timing sub log

theorem evaluateAll_script (hcap : max 1 c.phase.channelCapacity ≤ Phase.queueLimit)
    (htime : 0 < c.phase.timeoutMs) {subs : List Subsystem}
    (hplan : Planned (subs.map Subsystem.bracket))
    (hends : ∀ side, ∀ sub ∈ subs, sub.bracket.Ends (script side sub.bracket))
    (h : s.Armed c.idle script subs.length (subs.map Subsystem.bracket)) :
    ∃ es s', Comes (BoardTest.evaluateAll (executor c none) c subs) s (.ok es) s' ∧
      List.Forall₂ (Evaluates c.timing script) subs es ∧ s'.Armed c.idle script 0 [] := by
  induction subs generalizing s with
  | nil => exact ⟨[], s, comes_pure [] s, .nil, h⟩
  | cons sub subs ih =>
    obtain ⟨s₁, hready, h₁⟩ := ready_script hplan h
    rw [List.map_cons] at hplan
    obtain ⟨log, s₂, hphase, hmix, h₂⟩ :=
      runPhase_script hcap htime hplan (fun side => hends side sub List.mem_cons_self) h₁
    obtain ⟨es, s₃, hrest, hes, h₃⟩ :=
      ih hplan.tail (fun side sub' hsub' => hends side sub' (List.mem_cons_of_mem _ hsub')) h₂
    refine ⟨Evaluation.ofLog c.timing sub log :: es, s₃, ?_, .cons ⟨log, hmix, rfl⟩ hes, h₃⟩
    have hevaluate : Comes (BoardTest.evaluate (executor c none) c sub) s₁
        (.ok (Evaluation.ofLog c.timing sub log)) s₂ :=
      (comes_activity hphase).bind (comes_pure _ _)
    exact hready.bind (hevaluate.bind (hrest.bind (comes_pure _ _)))

theorem planned_phases : Planned BoardTest.phases where
  plain b hb := by
    have hall : ∀ b ∈ BoardTest.phases, b.start ≠ "" ∧ b.start.toList.head? ≠ some '[' := by decide
    obtain ⟨hne, hhead⟩ := hall b hb
    exact ⟨hne, fun c hc heq => hhead (heq ▸ hc)⟩
  apart := by decide

/-- **A test of two devices that keep to their scripts goes through**, if the scripts identify the
boards. All that they have sent is then read. -/
theorem runTests_script (hcap : max 1 c.phase.channelCapacity ≤ Phase.queueLimit)
    (htime : 0 < c.phase.timeoutMs) (hends : ∀ side, ∀ b ∈ BoardTest.phases, b.Ends (script side b))
    (hid : ∀ log,
      Interleaving (script .first Identity.bracket) (script .second Identity.bracket) log →
        ∃ i, Identity.ofLog log = .ok i)
    (h : s.Armed c.idle script BoardTest.phases.length BoardTest.phases) :
    ∃ t s', s.runTests c none = (.done t, s') ∧
      (∃ log, Interleaving (script .first Identity.bracket) (script .second Identity.bracket) log ∧
        Identity.ofLog log = .ok t.identity) ∧
      List.Forall₂ (Evaluates c.timing script) Subsystem.executionOrder t.evaluations ∧
      ∀ side, (s'.link side).pending = [] := by
  have harmed : s.Armed c.idle script (Subsystem.executionOrder.length + 1) BoardTest.phases := h
  obtain ⟨s₁, hready, h₁⟩ := ready_script planned_phases harmed
  obtain ⟨log, s₂, hphase, hmix, h₂⟩ := runPhase_script hcap htime planned_phases
    (fun side => hends side _ List.mem_cons_self) h₁
  obtain ⟨i, hi⟩ := hid log hmix
  obtain ⟨es, s₃, hrest, hes, h₃⟩ := evaluateAll_script hcap htime planned_phases.tail
    (fun side sub hsub => hends side _ (List.mem_cons_of_mem _ (List.mem_map_of_mem hsub))) h₂
  refine ⟨⟨i, es⟩, s₃, carryOut_of_comes ?_, ⟨log, hmix, hi⟩, hes, fun side => (h₃ side).drained⟩
  have hidentify : Comes (BoardTest.identify (executor c none)) s₁ (.ok i) s₂ := by
    apply (comes_activity hphase).bind
    simp only [hi]
    exact comes_pure _ _
  exact hready.bind (hidentify.bind (hrest.bind (comes_pure _ _)))

/-- With a queue that cannot be made, the same test ends before its first phase. -/
theorem runTests_queueTooLarge (hcap : Phase.queueLimit < max 1 c.phase.channelCapacity)
    (h : s.Armed c.idle script BoardTest.phases.length BoardTest.phases) :
    ∃ s', s.runTests c none = (.failed (.queueTooLarge (max 1 c.phase.channelCapacity)), s') := by
  have harmed : s.Armed c.idle script (Subsystem.executionOrder.length + 1) BoardTest.phases := h
  obtain ⟨s₁, hready, h₁⟩ := ready_script planned_phases harmed
  have hphase : s₁.runPhase c.phase none Identity.bracket =
      (.failed (.queueTooLarge (max 1 c.phase.channelCapacity)), s₁) := runPhase_queueTooLarge hcap
  have hidentify : Comes (BoardTest.identify (executor c none)) s₁
      (.error (.queueTooLarge (max 1 c.phase.channelCapacity))) s₁ :=
    (comes_activity_failed hphase).bind_error
  exact ⟨s₁, carryOut_of_comes_error (hready.bind hidentify.bind_error)⟩

end Session

end BoardBench
