import BoardBench.Proofs.Phase.Failure

/-!
# Phases that take no time — between links without delay a phase completes at once

A read that need not wait is due as soon as it begins. So a phase on two links without delay never
comes to a next instant: each of its rounds is followed by another one at the instant at which it
began, or leaves nothing to be done. If both queues lead to a stop message, nothing but completion
is left, as no reader fails or hangs on the way there (`Course.run_completes`).

**`Session.runPhase_completes` says what a session gets**: a log that mixes what the two readers
heard, and two links that have given away everything up to the stop message and nothing behind it.

The module is apart from the one on deadlines because its hypotheses are of another kind. Between
links without delay all reads end at the one instant at which the phase begins, and nothing could
keep them apart. What takes the place of such a proviso is that time does not go on:
`RoundEnd.not_nextDue` says that there is no next instant, and then a run can only end complete.
-/

set_option autoImplicit false

namespace BoardBench

namespace ScriptedLink

variable {b : Bracket} {l : ScriptedLink}

/-- A reader gets through this link without waiting: there is no delay, and the item behind those
that it passes is a stop message. -/
structure StopsAtOnce (b : Bracket) (l : ScriptedLink) : Prop where
  instant : l.delayMs = 0
  stops : ∃ i e, l.pending[l.passed b]? = some i ∧ i.heard b l.name = .event e

theorem StopsAtOnce.fault? (h : l.StopsAtOnce b) : l.fault? b = none := by
  obtain ⟨i, e, hi, he⟩ := h.stops
  simp [ScriptedLink.fault?, hi, he]

theorem StopsAtOnce.reads (h : l.StopsAtOnce b) : l.reads b = l.passed b + 1 := by
  obtain ⟨i, e, hi, -⟩ := h.stops
  have hlt : l.passed b < l.pending.length := (List.getElem?_eq_some_iff.1 hi).1
  rw [ScriptedLink.reads, if_neg (by omega)]

end ScriptedLink

/-! ## The run -/

namespace Course

open ScriptedLink

variable {b : Bracket} {l₀ : Side → ScriptedLink} {began capacity horizon : Nat}
  {c d : Course ScriptedLink}

/-- Nothing is due later if no read waits. -/
theorem RoundEnd.not_nextDue (h : d.RoundEnd b l₀ began)
    (hready : ∀ s, ((l₀ s).write b.start).StopsAtOnce b) (hf : d.phase.failure? = none) {t : Nat} :
    d.phase.nextDue? ≠ some t := by
  intro hdue
  obtain ⟨s, u, hu, hlt⟩ := Phase.due_of_nextDue? hdue
  obtain ⟨n, hstand⟩ := h.standing s (h.started hf s)
  unfold Reader.due? at hu
  split at hu
  · rename_i since hs
    have hdelay : (Link.read (d.phase.reader s).link).delayMs = 0 := by
      rw [hstand.link, delayMs_read_afterReads, (hready s).instant]
    have hsince := (hstand.reading since hs).1
    have hreached := hstand.reached
    have heq := Option.some.inj hu
    omega
  · cases hu

/-- A reader that waits for nothing is through. -/
theorem RoundEnd.finished (h : d.RoundEnd b l₀ began)
    (hready : ∀ s, ((l₀ s).write b.start).StopsAtOnce b) (hf : d.phase.failure? = none) {s : Side}
    (hw : (d.phase.reader s).Waits d.phase.now) : (d.phase.reader s).stage = .finished := by
  obtain ⟨n, hstand⟩ := h.standing s (h.started hf s)
  have hpos := hstand.position
  unfold Reader.Waits at hw
  cases hs : (d.phase.reader s).stage with
  | ready => simp only [hs] at hw
  | reading since =>
    simp only [hs] at hw
    have hdelay : (Link.read (d.phase.reader s).link).delayMs = 0 := by
      rw [hstand.link, delayMs_read_afterReads, (hready s).instant]
    have hsince := (hstand.reading since hs).1
    have hreached := hstand.reached
    omega
  | hanging =>
    rw [hs] at hpos
    obtain ⟨hn, -, hreads⟩ := hpos
    have := (hready s).reads
    omega
  | holding e => simp only [hs] at hw
  | finished => rfl
  | failed e => simp only [hs] at hw

/-- **A phase whose readers get through without waiting completes.** -/
theorem RoundStart.run_completes (h : c.RoundStart b l₀ began capacity) (hpos : 0 < capacity)
    (hready : ∀ s, ((l₀ s).write b.start).StopsAtOnce b) (hnow : c.phase.now = began)
    (htime : began < horizon) : ∃ d, c.run b capacity horizon = (.complete, d) := by
  -- the first instant is the only one, so that no round is at the horizon
  obtain ⟨c', ⟨hc', hsame⟩, hlast⟩ := run_lastRound (b := b) horizon
    (P := fun c => c.RoundStart b l₀ began capacity ∧ c.phase.now = began)
    (fun {c} ⟨hc, hnow⟩ hf => by
      refine ⟨hc.again hpos hf, ?_⟩
      rw [phase_newRound_now, now_round, hnow])
    (fun {c t} ⟨hc, _⟩ hf _ hdue _ =>
      absurd hdue ((hc.round hpos).not_nextDue hready hf))
    ⟨h, hnow⟩
  have hend := hc'.round hpos
  have hend_now : (c'.round b capacity).phase.now = began := by rw [now_round, hsame]
  rcases hrun : c.run b capacity horizon with ⟨close, d⟩
  rw [hrun] at hlast
  cases hlast with
  | @failed e hf =>
    obtain ⟨s, hs, -⟩ := Phase.reader_of_failure? hf
    obtain ⟨n, hstand⟩ := hend.standing s (by simp [hs])
    have hfault := (hstand.of_failed hs).1
    rw [(hready s).fault?] at hfault
    cases hfault
  | complete _ _ => exact ⟨_, rfl⟩
  | late _ hl => omega
  | still hf hc ha _ =>
    obtain ⟨hq, hwaits, hallow⟩ := hend.quiet hf ha
    have hcomplete : (c'.round b capacity).phase.isComplete = true :=
      Phase.isComplete_iff.2 ⟨fun s => hend.finished hready hf (hwaits s), hq⟩
    exact absurd ⟨hcomplete, hallow hcomplete⟩ hc

end Course

/-! ## What a session gets -/

/-- What a phase that is through leaves of a link, and what was delivered from it. -/
theorem Phase.Tracked.of_finished {b : Bracket} {l₀ : Side → ScriptedLink} {p : Phase ScriptedLink}
    (h : p.Tracked b l₀) {s : Side} (hs : (p.reader s).stage = .finished) :
    p.delivered s = ((l₀ s).write b.start).heardIn b (((l₀ s).write b.start).passed b + 1) ∧
      (p.reader s).link =
        ((l₀ s).write b.start).afterReads (((l₀ s).write b.start).passed b + 1) := by
  obtain ⟨rs, hp⟩ := h s
  have hheld : (p.reader s).held = [] := by simp [Reader.held, hs]
  rw [hheld, List.append_nil] at hp
  obtain ⟨hlink, -, hheard, hpos⟩ := hp.scripted (by simp [hs])
  rw [hs] at hpos
  obtain ⟨hn, -, -⟩ := hpos
  rw [hheard, hlink, hn]
  exact ⟨rfl, rfl⟩

namespace Session

open ScriptedLink

variable {settings : PhaseSettings} {b : Bracket} {s : Session ScriptedLink}

/-- **A phase on two links without delay, each with a stop message to come, completes**, whatever
the round that it begins in still allows. -/
theorem runPhase_completes (hcap : max 1 settings.channelCapacity ≤ Phase.queueLimit)
    (htime : 0 < settings.timeoutMs) (hready : ∀ side, (s.sent b side).StopsAtOnce b) :
    ∃ log s', s.runPhase settings none b = (.done log, s') ∧
      Interleaving ((s.sent b .first).heardIn b ((s.sent b .first).passed b + 1))
        ((s.sent b .second).heardIn b ((s.sent b .second).passed b + 1)) log ∧
      ∀ side, s'.link side = (s.sent b side).afterReads ((s.sent b side).passed b + 1) := by
  have hpos := capacity_pos settings
  have hp := begin_newPhase (s := s) hcap
  have hahead : s.clock.now < s.horizon settings none := by
    show s.clock.now < min (s.clock.now + settings.timeoutMs) (s.clock.now + settings.timeoutMs)
    omega
  obtain ⟨d, hrun⟩ := (roundStart_course hp).run_completes hpos
    (fun side => by rw [sent_eq]; exact hready side) (now_course hp) hahead
  obtain ⟨p', q, hp', hreach, hcomplete, hlog, hfirst, hsecond⟩ :=
    reaches_of_runPhase (runPhase_of_complete hp hrun)
  obtain ⟨hdone, hq⟩ := Phase.isComplete_iff.1 hcomplete
  -- that the phase is complete tells which events each reader gave, wherever the rounds ended
  have htracked := (Phase.tracked_begin (b := b) hp').reaches hreach
  have hside : ∀ side, q.delivered side = (s.sent b side).heardIn b ((s.sent b side).passed b + 1) ∧
      (q.reader side).link = (s.sent b side).afterReads ((s.sent b side).passed b + 1) := by
    intro side
    have := htracked.of_finished (hdone side)
    rwa [sent_eq] at this
  refine ⟨_, _, runPhase_of_complete hp hrun, ?_, ?_⟩
  · rw [hlog, ← (hside .first).1, ← (hside .second).1]
    exact Phase.interleaving_events hq
  · rintro (_ | _)
    · rw [← (hside .first).2]
      exact hfirst
    · rw [← (hside .second).2]
      exact hsecond

end Session

end BoardBench
