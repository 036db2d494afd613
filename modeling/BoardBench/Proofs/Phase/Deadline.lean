import BoardBench.Proofs.Phase.Failure

/-!
# Deadlines — a phase that gets no stop message in time gives up, and says who is to blame

A phase is given up at its deadline, and what it then says is read off three things that were kept
apart until then: the stages of the readers, the log, and the stop messages in it. They agree,
provided that no read ends at the deadline itself. Then nothing is under way at that instant
(`Course.Undecided`): every event that was heard is merged, and a reader is through exactly if its
stop message is in the log.

So the queues and the delays of two scripted links decide everything.
**`Session.phase_gives_up_exactly_at_its_deadline`** says when a phase is incomplete, which links it
names and how many events it counts, and that no phase outlasts its deadline, however it ends.

The proviso is about reads that end at the deadline itself. There the round decides, and a round has
an end of its own: an event may have been read and not yet delivered, or delivered and not merged,
and then the three accounts differ. `NoReadEnds` excludes it read by read, and only as far as the
phase gets: what would be read behind a fault or a stop message is of no importance.

`Undecided` is an invariant of runs that are not over. It says nothing before the deadline, and at
the deadline that somebody is still to come, since otherwise the run would have been complete in an
earlier round. Together with the invariants of rounds this leaves three ways to end (`run_ends`),
and what is said of the end of a phase is a case of them.
-/

set_option autoImplicit false

namespace BoardBench

/-! ## No run outlasts its deadline -/

namespace Course

section Time

variable {σ : Type} [Link σ] {b : Bracket} {capacity horizon : Nat} {c d : Course σ}

omit [Link σ] in
theorem now_expire (h : d.phase.now ≤ horizon) : (d.expire horizon).phase.now = horizon := by
  unfold expire
  split
  · rename_i hle
    exact Nat.le_antisymm h hle
  · exact Nat.max_eq_right h

theorem LastRound.now_le {close : Phase.Close} (h : LastRound horizon d close c)
    (hd : d.phase.now ≤ horizon) : c.phase.now ≤ horizon := by
  cases h with
  | failed _ => exact hd
  | complete _ _ => exact hd
  | late _ _ => exact Nat.le_of_eq (now_expire hd)
  | still _ _ _ _ => exact Nat.le_of_eq (now_expire hd)

/-- **A run that begins in time ends in time.** -/
theorem now_run_le (h : c.phase.now ≤ horizon) :
    (c.run b capacity horizon).2.phase.now ≤ horizon := by
  obtain ⟨c', hc', hlast⟩ := run_lastRound (b := b) horizon
    (P := fun c : Course σ => c.phase.now ≤ horizon)
    (fun {c} hc (_ : (c.round b capacity).phase.failure? = none) => by
      rw [phase_newRound_now, now_round]
      exact hc)
    (fun {c t} hc _ _ _ ht => by
      show max _ t ≤ horizon
      rw [now_round]
      exact Nat.max_le.2 ⟨hc, ht⟩) h
  exact hlast.now_le (by rw [now_round]; exact hc')

end Time

end Course

/-! ## What a reader has done by the deadline -/

namespace ScriptedLink

variable {b : Bracket} {l : ScriptedLink} {began now n m t : Nat} {r : Reader ScriptedLink}

/-- No read of the link ends at an instant. -/
def NoReadEnds (b : Bracket) (began instant : Nat) (l : ScriptedLink) : Prop :=
  ∀ i ≤ l.reads b, 0 < i → began + i * l.delayMs ≠ instant

/-- The reader fails within some time. -/
def FailsBy (b : Bracket) (t : Nat) (l : ScriptedLink) : Prop :=
  (l.fault? b).isSome = true ∧ l.endMs b ≤ t

/-- The event at which the reader stops, if it gets to a stop message. -/
def stop? (b : Bracket) (l : ScriptedLink) : Option Event :=
  (l.pending[l.passed b]?.bind (·.event? b l.name)).filter (·.payload == b.stop)

/-- The reader delivers a stop message within some time. -/
def stopsBy (b : Bracket) (t : Nat) (l : ScriptedLink) : Bool :=
  (l.stop? b).isSome && decide (l.endMs b ≤ t)

theorem stopsBy_iff : l.stopsBy b t = true ↔ (l.stop? b).isSome = true ∧ l.endMs b ≤ t := by
  rw [stopsBy, Bool.and_eq_true, decide_eq_true_eq]

/-- A reader with a stop message ahead reads up to it. -/
theorem reads_of_stop (h : (l.stop? b).isSome = true) : l.reads b = l.passed b + 1 := by
  have hlt : l.passed b < l.pending.length := by
    by_contra hge
    have hnone : l.pending[l.passed b]? = none := List.getElem?_eq_none (Nat.not_lt.1 hge)
    simp [stop?, hnone] at h
  rw [reads, if_neg (by omega)]

theorem fault?_of_stop (h : (l.stop? b).isSome = true) : l.fault? b = none := by
  unfold fault?
  cases hi : l.pending[l.passed b]? with
  | none => simp [stop?, hi] at h
  | some i =>
    cases hh : i.heard b l.name with
    | fault e => simp [stop?, hi, Incoming.event?, hh] at h
    | _ => simp [hh]

/-- The item that a reader stops at without failing is a stop message. -/
theorem stop_of_reads (hf : l.fault? b = none) (hreads : l.reads b = l.passed b + 1) :
    (l.stop? b).isSome = true := by
  rcases getElem?_of_le_takeWhile (Nat.le_refl (l.passed b)) with
    ⟨i, -, -, hle⟩ | ⟨i, hi, hp, -⟩ | ⟨hnone, -, hlen⟩
  · exact absurd hle (Nat.not_succ_le_self _)
  · unfold Incoming.isPassed at hp
    unfold fault? at hf
    rw [hi] at hf
    dsimp only at hf
    split at hp
    · cases hp
    · rename_i e he
      have hstop : e.payload = b.stop := by simpa using hp
      simp [stop?, hi, Incoming.event?, he, hstop]
    · rename_i e he
      rw [he] at hf
      cases hf
  · unfold fault? at hf
    rw [hnone] at hf
    dsimp only at hf
    split at hf
    · rename_i hh
      rw [reads, if_pos ⟨hlen.symm, hh⟩] at hreads
      omega
    · cases hf

/-- What was heard can be told from what is left. -/
theorem heardIn_of_afterReads (h : l.afterReads n = l.afterReads m) :
    l.heardIn b n = l.heardIn b m := by
  have hdrop : l.pending.drop n = l.pending.drop m := congrArg ScriptedLink.pending h
  have htake : l.pending.take n = l.pending.take m := by
    have hsplit : l.pending.take n ++ l.pending.drop n = l.pending.take m ++ l.pending.drop n := by
      rw [List.take_append_drop, hdrop, List.take_append_drop]
    exact List.append_cancel_right hsplit
  rw [heardIn, heardIn, htake]

namespace Standing

theorem of_finished (h : l.Standing b began now n r) (hs : r.stage = .finished) :
    (l.stop? b).isSome = true ∧ began + l.endMs b ≤ now := by
  have hpos := h.position
  rw [hs] at hpos
  obtain ⟨hn, hf, hreads⟩ := hpos
  refine ⟨stop_of_reads hf (hreads.trans hn), ?_⟩
  rw [endMs, hreads]
  exact h.reached

/-- A reader that is in the middle of something at this instant is ending a read. -/
theorem not_holding (h : l.Standing b began now n r)
    (hclear : l.NoReadEnds b began now) (e : Event) :
    r.stage ≠ .holding e := by
  intro hs
  have hpos := h.position
  rw [hs] at hpos
  obtain ⟨i, k, hk, -⟩ := hpos
  exact hclear n h.le_reads (by omega) (h.holding e hs)

/-- **A reader is through at an instant at which no read ends exactly if its stop message came
before.** -/
theorem finished_iff (h : l.Standing b began now n r)
    (hclear : l.NoReadEnds b began now)
    (hsound : ∀ e, r.stage ≠ .failed e) :
    r.stage = .finished ↔ l.stopsBy b (now - began) = true := by
  rw [stopsBy_iff]
  constructor
  · intro hs
    obtain ⟨hstop, hend⟩ := h.of_finished hs
    exact ⟨hstop, by omega⟩
  · rintro ⟨hstop, hend⟩
    have hreads := reads_of_stop hstop
    have hpos := h.position
    cases hs : r.stage with
    | ready =>
      rw [hs] at hpos
      exact hpos.elim
    | reading since =>
      -- the read that is going on ends at the stop message or before it, and so not now
      rw [hs] at hpos
      have hn : n ≤ l.passed b := hpos
      have hnow := (h.reading since hs).2
      have hreached := h.reached
      have hmono := Nat.mul_le_mul_right l.delayMs (Nat.add_le_add_right hn 1)
      have hne := hclear (n + 1) (by omega) (Nat.succ_pos n)
      rw [endMs, hreads] at hend
      omega
    | hanging =>
      rw [hs] at hpos
      obtain ⟨hn, -, hall⟩ := hpos
      omega
    | holding e => exact absurd hs (h.not_holding hclear e)
    | finished => rfl
    | failed e => exact absurd hs (hsound e)

/-- The number of reads by an instant at which none ends. -/
theorem eq_readsBy_of_clear (h : l.Standing b began now n r)
    (hclear : l.NoReadEnds b began now) :
    n = l.readsBy b (now - began) := by
  have hreached := h.reached
  by_cases hlong : began < now ∨ 0 < l.delayMs
  · refine h.eq_readsBy hlong fun j hj heq => ?_
    rcases Nat.eq_zero_or_pos j with rfl | hpos
    · omega
    · exact absurd (by omega) (hclear j hj hpos)
  · -- no time has passed and none would be needed, so that there is nothing to be read
    have hd : l.delayMs = 0 := by omega
    rw [hd, Nat.mul_zero] at hreached
    have hnone : l.reads b = 0 := by
      by_contra hsome
      refine hclear 1 (Nat.pos_of_ne_zero hsome) Nat.one_pos ?_
      rw [hd]
      omega
    have hle := h.le_reads
    exact h.eq_readsBy_of_reads (by omega)

end Standing

end ScriptedLink

/-! ## Nothing is under way at the deadline -/

namespace Course

open ScriptedLink

/-- At the deadline all events are merged, and some reader is not through. Otherwise the phase would
be over. -/
def Undecided {σ : Type} (horizon : Nat) (c : Course σ) : Prop :=
  c.phase.now = horizon → c.phase.queue = [] ∧ ∃ s, (c.phase.reader s).stage ≠ .finished

variable {b : Bracket} {l₀ : Side → ScriptedLink} {began capacity horizon : Nat}
  {c d : Course ScriptedLink} {p : Party}

theorem Undecided.acts (h : c.Undecided horizon) (ht : c.phase.Timed b l₀ began)
    (hclear : ∀ s, ((l₀ s).write b.start).NoReadEnds b began horizon) (ha : Acts b capacity c p d) :
    d.Undecided horizon := by
  intro hnow
  have hnow' : c.phase.now = horizon := ha.now_eq ▸ hnow
  obtain ⟨hq, t, hopen⟩ := h hnow'
  -- a reader that starts or receives is not through by that
  have hset : ∀ {s : Side} {r : Reader ScriptedLink}, r.stage ≠ .finished →
      ∃ t, ((c.phase.setReader r s).reader t).stage ≠ .finished := by
    intro s r hr
    refine ⟨s, ?_⟩
    rw [Phase.reader_setReader_self]
    exact hr
  cases ha with
  | start hs =>
    exact ⟨by rw [moved, Phase.queue_setReader]; exact hq, hset (Reader.start_ne_finished _ _ _)⟩
  | receive hs _ _ =>
    exact ⟨by rw [moved, Phase.queue_setReader]; exact hq, hset (Reader.receive_ne_finished _ _ _)⟩
  | deliver hs _ _ _ =>
    -- what is in hand was read at this instant
    obtain ⟨rs, es, hp, ht⟩ := ht _
    exact absurd hs ((hp.standing ht (by simp [hs])).not_holding (hnow'.symm ▸ hclear _) _)
  | merge hmerge _ =>
    rw [hq] at hmerge
    cases hmerge

theorem Undecided.round (h : c.Undecided horizon) (ht : c.phase.Timed b l₀ began)
    (hclear : ∀ s, ((l₀ s).write b.start).NoReadEnds b began horizon) :
    (c.round b capacity).Undecided horizon := by
  have hboth : (c.round b capacity).phase.Timed b l₀ began ∧
      (c.round b capacity).Undecided horizon := by
    refine round_keeps
      (P := fun c : Course ScriptedLink => c.phase.Timed b l₀ began ∧ c.Undecided horizon)
      ?_ ?_ ?_ ⟨ht, h⟩
    · rintro c d p ⟨ht, hu⟩ ha
      exact ⟨Timed.acts ht ha, hu.acts ht hclear ha⟩
    · rintro c p ⟨ht, hu⟩ -
      unfold Undecided
      rw [phase_rest]
      exact ⟨ht, hu⟩
    · exact fun h => h
  exact hboth.2

/-- The next round is at the instant at which somebody still reads. -/
theorem RoundEnd.undecided_next {t : Nat} (h : d.RoundEnd b l₀ began)
    (hf : d.phase.failure? = none) (ha : d.pace.again = false) (hdue : d.phase.nextDue? = some t) :
    (d.newRound t).Undecided horizon := by
  intro _
  obtain ⟨s, u, hu, -⟩ := Phase.due_of_nextDue? hdue
  refine ⟨(h.quiet hf ha).1, s, fun hs => ?_⟩
  have hs' : (d.phase.reader s).stage = .finished := hs
  simp [Reader.due?, hs'] at hu

end Course

/-! ## A phase that is given up -/

/-- A phase at its deadline: both readers came to where they are in time, everything is merged,
nobody failed, and somebody is not through. -/
structure Phase.Expired (b : Bracket) (l₀ : Side → ScriptedLink) (began horizon : Nat)
    (p : Phase ScriptedLink) : Prop where
  now : p.now = horizon
  drained : p.queue = []
  sound : p.failure? = none
  timed : p.Timed b l₀ began
  started : ∀ s, (p.reader s).stage ≠ .ready
  unfinished : ∃ s, (p.reader s).stage ≠ .finished

namespace Course

open ScriptedLink

variable {b : Bracket} {l₀ : Side → ScriptedLink} {began capacity horizon : Nat}
  {c d : Course ScriptedLink}

theorem LastRound.expired (hlast : LastRound horizon d .timeUp c) (h : d.RoundEnd b l₀ began)
    (hnow : d.phase.now ≤ horizon) (hopen : d.Undecided horizon) :
    c.phase.Expired b l₀ began horizon := by
  cases hlast with
  | late hf hl =>
    obtain ⟨hq, hs⟩ := hopen (Nat.le_antisymm hnow hl)
    have hsame : (d.expire horizon).phase = d.phase := by
      unfold expire
      rw [if_pos hl]
      rfl
    exact hsame ▸ ⟨Nat.le_antisymm hnow hl, hq, hf, h.timed, h.started hf, hs⟩
  | still hf hc ha hd =>
    obtain ⟨hq, hwaits, hallow⟩ := h.quiet hf ha
    -- nothing is due up to the deadline, so that time goes on to it
    have hdue : ∀ s u, (d.phase.reader s).due? = some u → d.phase.now < u → horizon ≤ u := by
      intro s u hu hlt
      obtain ⟨t, ht, -, hle⟩ := Phase.nextDue?_spec hu hlt
      exact Nat.le_of_lt (Nat.lt_of_lt_of_le (hd t ht) hle)
    have hsame : (d.expire horizon).phase = d.phase.atInstant horizon := by
      unfold expire
      split
      · rename_i hle
        simp [step, Phase.atInstant, Nat.max_eq_left hle]
      · rfl
    have hs : ∃ s, (d.phase.reader s).stage ≠ .finished := by
      by_contra hall
      rw [not_exists] at hall
      have hcomplete : d.phase.isComplete = true :=
        Phase.isComplete_iff.2 ⟨fun s => not_not.1 (hall s), hq⟩
      exact hc ⟨hcomplete, hallow hcomplete⟩
    exact hsame ▸ ⟨Nat.max_eq_right hnow, hq, hf, h.timed.atInstant hnow hwaits hdue,
      h.started hf, hs⟩

/-- **How a run ends if no read ends at its deadline**: a reader failed in time, both are through in
time, or the phase is at its deadline. -/
theorem RoundStart.run_ends (h : c.RoundStart b l₀ began capacity) (hpos : 0 < capacity)
    (hnow : c.phase.now ≤ horizon) (hopen : c.Undecided horizon)
    (hclear : ∀ s, ((l₀ s).write b.start).NoReadEnds b began horizon) :
    ∃ d : Course ScriptedLink, d.RoundEnd b l₀ began ∧ d.phase.now ≤ horizon ∧
      d.Undecided horizon ∧
      LastRound horizon d (c.run b capacity horizon).1 (c.run b capacity horizon).2 := by
  obtain ⟨c', ⟨hc', hnow', hopen'⟩, hlast⟩ := run_lastRound (b := b) horizon
    (P := fun c : Course ScriptedLink =>
      c.RoundStart b l₀ began capacity ∧ c.phase.now ≤ horizon ∧ c.Undecided horizon)
    (fun {c} ⟨hc, hnow, hopen⟩ hf => by
      have hsame := phase_newRound_now (c.round b capacity)
      refine ⟨hc.again hpos hf, by rw [hsame, now_round]; exact hnow, ?_⟩
      unfold Undecided
      rw [hsame]
      exact hopen.round hc.timed hclear)
    (fun {c t} ⟨hc, hnow, _⟩ hf ha hdue ht => by
      refine ⟨hc.next hpos hf ha hdue, ?_, (hc.round hpos).undecided_next hf ha hdue⟩
      show max _ t ≤ horizon
      rw [now_round]
      exact Nat.max_le.2 ⟨hnow, ht⟩)
    ⟨h, hnow, hopen⟩
  exact ⟨_, hc'.round hpos, by rw [now_round]; exact hnow', hopen'.round hc'.timed hclear, hlast⟩

end Course

/-! ## What is told of a phase that is given up -/

namespace Phase

section Log

variable {σ : Type} [Link σ] {b : Bracket} {l₀ : Side → σ} {p : Phase σ} {s : Side}

omit [Link σ] in
theorem hasStopped_iff (hq : p.queue = []) :
    p.hasStopped b s = true ↔ ∃ e ∈ p.delivered s, e.payload = b.stop := by
  rw [hasStopped, Array.any_eq_true', delivered, hq, List.append_nil]
  constructor
  · rintro ⟨⟨t, e⟩, hmem, hx⟩
    simp only [Bool.and_eq_true, beq_iff_eq] at hx
    refine ⟨e, List.mem_map.2 ⟨(t, e), List.mem_filter.2 ⟨by simpa using hmem, ?_⟩, rfl⟩, hx.2⟩
    simpa using hx.1
  · rintro ⟨e, he, hstop⟩
    obtain ⟨⟨t, x⟩, hmem, rfl⟩ := List.mem_map.1 he
    obtain ⟨hmem, ht⟩ := List.mem_filter.1 hmem
    refine ⟨(t, x), by simpa using hmem, ?_⟩
    simp only [Bool.and_eq_true, beq_iff_eq]
    exact ⟨by simpa using ht, hstop⟩

/-- **The stop message of a side is in the log exactly if its reader is through**, unless the reader
failed or has an event in hand. -/
theorem Tracked.hasStopped_iff_finished (h : p.Tracked b l₀) (hq : p.queue = [])
    (hstarted : (p.reader s).stage ≠ .ready) (hsound : ∀ e, (p.reader s).stage ≠ .failed e)
    (hnone : ∀ e, (p.reader s).stage ≠ .holding e) :
    p.hasStopped b s = true ↔ (p.reader s).stage = .finished := by
  rw [hasStopped_iff hq]
  obtain ⟨rs, hp⟩ := h s
  have hfar := hp.soFar
  unfold SoFar at hfar
  cases hs : (p.reader s).stage with
  | ready => exact absurd hs hstarted
  | reading t =>
    simp only [hs, Reader.held, List.append_nil] at hfar
    refine iff_of_false ?_ Stage.noConfusion
    rintro ⟨e, he, hstop⟩
    exact hfar.1 e he hstop
  | hanging =>
    simp only [hs, Reader.held, List.append_nil] at hfar
    refine iff_of_false ?_ Stage.noConfusion
    rintro ⟨e, he, hstop⟩
    exact hfar.1 e he hstop
  | holding e => exact absurd hs (hnone e)
  | finished =>
    simp only [hs, Reader.held, List.append_nil] at hfar
    obtain ⟨lines, hstream⟩ := hfar
    obtain ⟨front, last, hes, hstop, -⟩ := hstream.stops
    refine iff_of_true ⟨last, ?_, hstop⟩ rfl
    rw [hes]
    exact List.mem_append_right _ (List.mem_singleton_self last)
  | failed e => exact absurd hs (hsound e)

end Log

open ScriptedLink

namespace Expired

variable {b : Bracket} {l₀ : Side → ScriptedLink} {began horizon : Nat} {p : Phase ScriptedLink}

/-- A reader at the deadline: it has made as many reads as there was time for, and it is through
exactly if its stop message was among them. -/
theorem reader (h : p.Expired b l₀ began horizon)
    (hclear : ∀ s, ((l₀ s).write b.start).NoReadEnds b began horizon) (s : Side) :
    (∀ e, (p.reader s).stage ≠ .failed e) ∧ (∀ e, (p.reader s).stage ≠ .holding e) ∧
      (p.reader s).link = ((l₀ s).write b.start).afterReads
        (((l₀ s).write b.start).readsBy b (horizon - began)) ∧
      ((p.reader s).stage = .finished ↔
        ((l₀ s).write b.start).stopsBy b (horizon - began) = true) ∧
      ∀ e, ((l₀ s).write b.start).fault? b = some e →
        horizon < began + ((l₀ s).write b.start).endMs b := by
  obtain ⟨rs, es, hp, ht⟩ := h.timed s
  have hstand := hp.standing ht (h.started s)
  rw [h.now] at hstand
  have hsound : ∀ e, (p.reader s).stage ≠ .failed e :=
    fun e => Phase.not_failed_of_failure? h.sound
  refine ⟨hsound, hstand.not_holding (hclear s), ?_, hstand.finished_iff (hclear s) hsound, ?_⟩
  · rw [← hstand.eq_readsBy_of_clear (hclear s)]
    exact hstand.link
  · intro e he
    have hne := hclear s _ (Nat.le_refl _) (by rw [reads_of_fault he]; exact Nat.succ_pos _)
    exact Nat.lt_of_le_of_ne (hstand.not_late he) (Ne.symm hne)

theorem delivered (h : p.Expired b l₀ began horizon) (htracked : p.Tracked b l₀)
    (hclear : ∀ s, ((l₀ s).write b.start).NoReadEnds b began horizon) (s : Side) :
    p.delivered s = ((l₀ s).write b.start).heardIn b
      (((l₀ s).write b.start).readsBy b (horizon - began)) := by
  obtain ⟨-, hnone, hlink, -, -⟩ := h.reader hclear s
  obtain ⟨rs, hp⟩ := htracked s
  have hheld : (p.reader s).held = [] := by
    unfold Reader.held
    split
    · rename_i e hs
      exact absurd hs (hnone e)
    · rfl
  rw [hheld, List.append_nil] at hp
  obtain ⟨hlink', -, hheard, -⟩ := hp.scripted (h.started s)
  rw [hheard]
  exact heardIn_of_afterReads (hlink'.symm.trans hlink)

/-- **The log holds what both readers heard in time.** -/
theorem size_log (h : p.Expired b l₀ began horizon) (htracked : p.Tracked b l₀)
    (hclear : ∀ s, ((l₀ s).write b.start).NoReadEnds b began horizon) :
    p.log.size =
      (((l₀ .first).write b.start).heardIn b
        (((l₀ .first).write b.start).readsBy b (horizon - began))).length +
      (((l₀ .second).write b.start).heardIn b
        (((l₀ .second).write b.start).readsBy b (horizon - began))).length := by
  rw [← h.delivered htracked hclear, ← h.delivered htracked hclear,
    ← (interleaving_events h.drained).length_eq, events, List.length_map, Array.length_toList]

/-- **The links named are those whose stop message did not come in time.** -/
theorem pendingNames (h : p.Expired b l₀ began horizon) (htracked : p.Tracked b l₀)
    (hclear : ∀ s, ((l₀ s).write b.start).NoReadEnds b began horizon) :
    Session.pendingNames b p =
      ([.first, .second].filter fun s =>
        !((l₀ s).write b.start).stopsBy b (horizon - began)).map fun s => (l₀ s).name := by
  have hstopped : ∀ s, p.hasStopped b s =
      ((l₀ s).write b.start).stopsBy b (horizon - began) := by
    intro s
    obtain ⟨hsound, hnone, -, hfinished, -⟩ := h.reader hclear s
    rw [Bool.eq_iff_iff, ← hfinished]
    exact htracked.hasStopped_iff_finished h.drained (h.started s) hsound hnone
  have hname : ∀ s, Link.name (p.reader s).link = (l₀ s).name := by
    intro s
    rw [(h.reader hclear s).2.2.1]
    rfl
  simp only [Session.pendingNames, hstopped, hname]

end Expired

end Phase

/-! ## What a session gets -/

namespace Session

open ScriptedLink

variable {settings : PhaseSettings} {b : Bracket} {s : Session ScriptedLink}

/-- What is told of a phase that is incomplete: its command and its time, the links whose stop
message did not come, in order, and the number of events that did. It is told at the deadline. -/
structure Incomplete (settings : PhaseSettings) (b : Bracket) (s : Session ScriptedLink)
    (start : String) (timeoutMs : Nat) (pending : List String) (collected : Nat)
    (s' : Session ScriptedLink) : Prop where
  command : start = b.start
  time : timeoutMs = settings.timeoutMs
  names : pending = ([.first, .second].filter fun side =>
    !(s.sent b side).stopsBy b settings.timeoutMs).map fun side => (s.link side).name
  someone : pending ≠ []
  counts : collected =
    ((s.sent b .first).heardIn b ((s.sent b .first).readsBy b settings.timeoutMs)).length +
      ((s.sent b .second).heardIn b ((s.sent b .second).readsBy b settings.timeoutMs)).length
  now : s'.clock.now = s.clock.now + settings.timeoutMs

/-- A phase ends, and no later than at its deadline. -/
theorem runPhase_in_time {σ : Type} [Link σ] (settings : PhaseSettings) (b : Bracket)
    (s : Session σ) : (s.runPhase settings none b).1 ≠ .stalled ∧
      (s.runPhase settings none b).2.clock.now ≤ s.clock.now + settings.timeoutMs := by
  cases hp : Phase.begin? (max 1 settings.channelCapacity) s.clock.now s.first s.second with
  | none =>
    simp only [runPhase, hp]
    exact ⟨by simp, Nat.le_add_right _ _⟩
  | some p =>
    rw [runPhase_eq hp]
    have hhorizon : s.horizon settings none = s.clock.now + settings.timeoutMs := Nat.min_self _
    have hnow := now_course hp
    refine ⟨?_, hhorizon ▸ Course.now_run_le (by omega)⟩
    dsimp only
    unfold phaseEnding
    split
    · simp
    · simp
    · simp [Limit.allows]

theorem allowed_of_failed {e : BenchError} {d : Course ScriptedLink}
    (hend : d.RoundEnd b (Side.pick s.first s.second) s.clock.now)
    (hfail : d.phase.failure? = some e)
    (hnow : d.phase.now ≤ s.clock.now + settings.timeoutMs) :
    (∃ side, (s.sent b side).FailsBy b settings.timeoutMs) ∧
      ∀ start ms pending n, e ≠ .phaseIncomplete start ms pending n := by
  obtain ⟨side, hs, -⟩ := Phase.reader_of_failure? hfail
  obtain ⟨hf, hwhen, -⟩ := fault_of_failed hend hs
  refine ⟨⟨side, by simp [hf], by omega⟩, ?_⟩
  obtain ⟨rs, es, hprog, -⟩ := hend.timed side
  rcases failed_of_progress hprog hs with ⟨x, rfl⟩ | rfl | ⟨x, rfl⟩ <;> simp

theorem stops_of_complete {d : Course ScriptedLink}
    (hend : d.RoundEnd b (Side.pick s.first s.second) s.clock.now)
    (hf : d.phase.failure? = none) (hc : d.phase.isComplete = true)
    (hnow : d.phase.now ≤ s.clock.now + settings.timeoutMs) (side : Side) :
    (s.sent b side).stopsBy b settings.timeoutMs = true := by
  obtain ⟨n, hstand⟩ := hend.standing side (hend.started hf side)
  rw [sent_eq] at hstand
  obtain ⟨hstop, hwhen⟩ := hstand.of_finished ((Phase.isComplete_iff.1 hc).1 side)
  exact stopsBy_iff.2 ⟨hstop, by omega⟩

/-- A phase that is at its deadline: nobody failed in time, somebody did not stop in time, and what
is told of it is right. -/
theorem incomplete_of_expired {p : Phase ScriptedLink}
    (h : p.Expired b (Side.pick s.first s.second) s.clock.now (s.clock.now + settings.timeoutMs))
    (htracked : p.Tracked b (Side.pick s.first s.second))
    (hclear : ∀ side, ((Side.pick s.first s.second side).write b.start).NoReadEnds b s.clock.now
      (s.clock.now + settings.timeoutMs)) {s' : Session ScriptedLink}
    (hnow : s'.clock.now = s.clock.now + settings.timeoutMs) :
    (∀ side, ¬(s.sent b side).FailsBy b settings.timeoutMs) ∧
      (∃ side, (s.sent b side).stopsBy b settings.timeoutMs = false) ∧
      Incomplete settings b s b.start settings.timeoutMs (pendingNames b p) p.log.size s' := by
  have hreader := fun side => h.reader hclear side
  have hnames := h.pendingNames htracked hclear
  have hsize := h.size_log htracked hclear
  simp only [sent_eq, Nat.add_sub_cancel_left] at hreader hnames hsize
  have hopen : ∃ side, (s.sent b side).stopsBy b settings.timeoutMs = false := by
    obtain ⟨side, hside⟩ := h.unfinished
    obtain ⟨-, -, -, hfinished, -⟩ := hreader side
    exact ⟨side, by rwa [ne_eq, hfinished, Bool.not_eq_true] at hside⟩
  have hlink : ∀ side, (Side.pick s.first s.second side).name = (s.link side).name := by
    rintro (_ | _) <;> rfl
  simp only [hlink] at hnames
  refine ⟨fun side hfails => ?_, hopen, rfl, rfl, hnames, ?_, hsize, hnow⟩
  · obtain ⟨hsome, hend⟩ := hfails
    obtain ⟨e, he⟩ := Option.isSome_iff_exists.1 hsome
    have := (hreader side).2.2.2.2 e he
    omega
  · obtain ⟨side, hside⟩ := hopen
    rw [hnames]
    refine List.ne_nil_of_mem (List.mem_map_of_mem (List.mem_filter.2 ⟨?_, by simpa using hside⟩))
    cases side <;> simp

/-- The three ways in which a phase ends, provided that no read ends at its deadline. -/
inductive EndsInTime (settings : PhaseSettings) (b : Bracket) (s : Session ScriptedLink) :
    Ending BenchError (List Event) → Session ScriptedLink → Prop
  | failed {e : BenchError} {s' : Session ScriptedLink}
      (hfails : ∃ side, (s.sent b side).FailsBy b settings.timeoutMs)
      (hother : ∀ start ms pending n, e ≠ .phaseIncomplete start ms pending n) :
      EndsInTime settings b s (.failed e) s'
  | complete {log : List Event} {s' : Session ScriptedLink}
      (hstops : ∀ side, (s.sent b side).stopsBy b settings.timeoutMs = true) :
      EndsInTime settings b s (.done log) s'
  | incomplete {start : String} {ms n : Nat} {pending : List String} {s' : Session ScriptedLink}
      (hsound : ∀ side, ¬(s.sent b side).FailsBy b settings.timeoutMs)
      (hopen : ∃ side, (s.sent b side).stopsBy b settings.timeoutMs = false)
      (htold : Incomplete settings b s start ms pending n s') :
      EndsInTime settings b s (.failed (.phaseIncomplete start ms pending n)) s'

theorem endsInTime_of_fault (hcap : max 1 settings.channelCapacity ≤ Phase.queueLimit)
    {side : Side} {e : BenchError} (hf : (s.sent b side).fault? b = some e)
    (ht : (s.sent b side).endMs b < settings.timeoutMs) :
    EndsInTime settings b s (s.runPhase settings none b).1 (s.runPhase settings none b).2 := by
  have hpos := capacity_pos settings
  have hp := begin_newPhase (s := s) hcap
  have hhorizon : s.horizon settings none = s.clock.now + settings.timeoutMs := Nat.min_self _
  rw [← sent_eq] at hf ht
  have hearly : s.clock.now + ((Side.pick s.first s.second side).write b.start).endMs b <
      s.horizon settings none := by omega
  obtain ⟨d, e', hrun, hend, hfail⟩ :=
    (roundStart_course (b := b) hp).run_fails hpos hf hearly
  have hfirst : (s.course s.newPhase).phase.now ≤ s.horizon settings none := by
    show s.clock.now ≤ _
    omega
  have hrun' : (s.course s.newPhase).run b (max 1 settings.channelCapacity)
      (s.horizon settings none) = (.failed e', d) := hrun
  have hnow : ((s.course s.newPhase).run b (max 1 settings.channelCapacity)
      (s.horizon settings none)).2.phase.now ≤ s.horizon settings none :=
    Course.now_run_le hfirst
  rw [hrun', hhorizon] at hnow
  obtain ⟨hfails, hother⟩ := allowed_of_failed hend hfail hnow
  rw [runPhase_of_failed hp hrun]
  exact .failed hfails hother

theorem endsInTime_of_clear (hcap : max 1 settings.channelCapacity ≤ Phase.queueLimit)
    (hoff : ∀ side, (s.sent b side).NoReadEnds b 0 settings.timeoutMs) :
    EndsInTime settings b s (s.runPhase settings none b).1 (s.runPhase settings none b).2 := by
  have hpos := capacity_pos settings
  have hp := begin_newPhase (s := s) hcap
  have hhorizon : s.horizon settings none = s.clock.now + settings.timeoutMs := Nat.min_self _
  have hfirst : s.clock.now ≤ s.horizon settings none := by omega
  have hclear : ∀ side, ((Side.pick s.first s.second side).write b.start).NoReadEnds b s.clock.now
      (s.horizon settings none) := by
    intro side i hi hpos heq
    rw [sent_eq] at hi heq
    exact hoff side i hi hpos (by omega)
  obtain ⟨d, hend, hnow, hopen, hlast⟩ :=
    (roundStart_course (b := b) hp).run_ends hpos hfirst
      (fun _ => ⟨rfl, .first, Stage.noConfusion⟩) hclear
  have htracked : ((s.course s.newPhase).run b (max 1 settings.channelCapacity)
      (s.horizon settings none)).2.phase.Tracked b (Side.pick s.first s.second) :=
    (Phase.tracked_begin hp).reaches (Phase.reached_run (c := s.course s.newPhase) .refl)
  rw [runPhase_eq hp]
  change Course.LastRound _ d ((s.course s.newPhase).run b _ _).1
    ((s.course s.newPhase).run b _ _).2 at hlast
  -- from here on only the end of the run counts, not how it was computed
  generalize (s.course s.newPhase).run b (max 1 settings.channelCapacity)
    (s.horizon settings none) = r at hlast htracked
  obtain ⟨close, c⟩ := r
  dsimp only at hlast htracked ⊢
  rw [hhorizon] at hnow hclear
  -- the close says how the last round went, and each way of closing has its own reason: a fault in
  -- time, two stop messages in time, or the deadline
  cases close with
  | failed e =>
    cases hlast with
    | failed hfail =>
      obtain ⟨hfails, hother⟩ := allowed_of_failed hend hfail hnow
      exact .failed hfails hother
  | complete =>
    cases hlast with
    | complete hf hc => exact .complete (stops_of_complete hend hf hc hnow)
  | timeUp =>
    have hexpired := hlast.expired hend (hhorizon ▸ hnow) hopen
    rw [hhorizon] at hexpired
    have hnow' : (afterPhase c).clock.now = s.clock.now + settings.timeoutMs := hexpired.now
    obtain ⟨hsound, hopen, htold⟩ := incomplete_of_expired hexpired htracked hclear hnow'
    exact .incomplete hsound hopen htold

/-- **A phase is given up exactly at its deadline, for want of a stop message and for nothing
else.** Whatever the links do, the phase ends, and not after its deadline. Let the queue be one that
can be made, and let no read end at the deadline itself, as far as the phase gets there. Then the
phase is incomplete if and only if no reader fails in time and some reader does not stop in time,
and what it says is as `Incomplete` has it. -/
theorem phase_gives_up_exactly_at_its_deadline (settings : PhaseSettings) (b : Bracket)
    (s : Session ScriptedLink) :
    ∃ ending s', s.runPhase settings none b = (ending, s') ∧ ending ≠ .stalled ∧
      s'.clock.now ≤ s.clock.now + settings.timeoutMs ∧
      (max 1 settings.channelCapacity ≤ Phase.queueLimit →
        (∃ side e, (s.sent b side).fault? b = some e ∧
            (s.sent b side).endMs b < settings.timeoutMs) ∨
          (∀ side, (s.sent b side).NoReadEnds b 0 settings.timeoutMs) →
        ((∃ start ms pending n, ending = .failed (.phaseIncomplete start ms pending n)) ↔
          (∀ side, ¬(s.sent b side).FailsBy b settings.timeoutMs) ∧
            ∃ side, (s.sent b side).stopsBy b settings.timeoutMs = false) ∧
        ∀ start ms pending n, ending = .failed (.phaseIncomplete start ms pending n) →
          Incomplete settings b s start ms pending n s') := by
  obtain ⟨hstalled, htime⟩ := runPhase_in_time settings b s
  rcases hrun : s.runPhase settings none b with ⟨ending, s'⟩
  rw [hrun] at hstalled htime
  refine ⟨ending, s', rfl, hstalled, htime, fun hcap hoff => ?_⟩
  have hends : EndsInTime settings b s ending s' := by
    rcases hoff with ⟨side, e, hf, ht⟩ | hoff
    · have hends := endsInTime_of_fault hcap hf ht
      rwa [hrun] at hends
    · have hends := endsInTime_of_clear hcap hoff
      rwa [hrun] at hends
  -- of the three endings only one is incomplete, and each excludes the conditions of the other two
  cases hends with
  | failed hfails hother =>
    obtain ⟨side, hside⟩ := hfails
    refine ⟨iff_of_false ?_ fun h => h.1 side hside, fun start ms pending n heq => ?_⟩
    · rintro ⟨start, ms, pending, n, heq⟩
      exact hother start ms pending n (Ending.failed.inj heq)
    · exact absurd (Ending.failed.inj heq) (hother start ms pending n)
  | complete hstops =>
    refine ⟨iff_of_false ?_ ?_, fun start ms pending n heq => by cases heq⟩
    · rintro ⟨start, ms, pending, n, heq⟩
      cases heq
    · rintro ⟨-, side, hside⟩
      rw [hstops side] at hside
      cases hside
  | incomplete hsound hopen htold =>
    refine ⟨iff_of_true ⟨_, _, _, _, rfl⟩ ⟨hsound, hopen⟩, fun start ms pending n heq => ?_⟩
    cases heq
    exact htold

/-- The board under test is through after four milliseconds. The tester reports a frame and then
falls silent. -/
def silenced : Session ScriptedLink where
  first := ({ name := "a", delayMs := 2 } : ScriptedLink).respond
    "can start" ["can start", "[1] <inf> sut: can stop"]
  second := ({ name := "b", delayMs := 3, hangs := true } : ScriptedLink).respond
    "can start" ["[1] <inf> tester: can@40006400: frame id: 1, data: 1"]

def silencedSettings : PhaseSettings := { timeoutMs := 50 }

/-- The tester is named, after fifty milliseconds, and both events are counted. -/
theorem silenced_names_tester :
    (∀ side, (silenced.sent rebootingBracket side).NoReadEnds rebootingBracket 0
      silencedSettings.timeoutMs) ∧
    ∃ s', silenced.runPhase silencedSettings none rebootingBracket =
        (.failed (.phaseIncomplete "can start" 50 ["b"] 2), s') ∧ s'.clock.now = 50 := by
  have hoff : ∀ side, (silenced.sent rebootingBracket side).NoReadEnds rebootingBracket 0
      silencedSettings.timeoutMs := by
    unfold NoReadEnds
    rintro (_ | _) <;> decide +kernel
  obtain ⟨ending, s', hrun, -, -, h⟩ :=
    phase_gives_up_exactly_at_its_deadline silencedSettings rebootingBracket silenced
  obtain ⟨hiff, htold⟩ := h (by decide) (Or.inr hoff)
  have hquiet : ∀ side, (silenced.sent rebootingBracket side).fault? rebootingBracket = none := by
    rintro (_ | _) <;> decide +kernel
  obtain ⟨start, ms, pending, n, rfl⟩ := hiff.2
    ⟨fun side hfails => by simp [FailsBy, hquiet side] at hfails, .second, by decide +kernel⟩
  obtain ⟨rfl, rfl, hnames, -, hcounts, hnow⟩ := htold _ _ _ _ rfl
  have hb : pending = ["b"] := hnames.trans (by decide +kernel)
  have htwo : n = 2 := hcounts.trans (by decide +kernel)
  subst hb htwo
  exact ⟨hoff, s', hrun, hnow⟩

end Session

end BoardBench
