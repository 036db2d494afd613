import BoardBench.Proofs.Phase.Merge
import BoardBench.Proofs.Phase.Standing

/-!
# Failures — who ends a phase that fails, when, and what is left on the links

A phase on two scripted links is decided by their queues and delays alone. Each reader meets its
fault at an instant that can be told from its link. The phase cannot get past the earliest of these
instants, and it does not end before.

**`Session.phase_ends_at_earliest_fault` puts this together**: the error is that of a reader which
fails earliest, the phase ends when it does, its link has given away everything up to the item at
fault, and the other one no more than its reader had time for. Only at the very start, where both
readers can fail before either waits, does the order of the turns matter, and with it the allowance
of a round.

Two readers may meet their faults at the same instant, and then the round decides. Later than at
once this is left out, by a hypothesis on the reads of both links (`ReadsApart`). At once the first
reader has the first turn, and gets to its fault in it unless the queue or the allowance of the
round stops it before. `Alone` is the invariant of that turn: as long as the first reader goes on,
nothing whatever has happened to the second one. It is an invariant of acts and not of rounds, as
nothing of the kind holds when the turn is over.

What a failing phase leaves behind is part of the statement, for both links. Without it a phase that
read on after the failure, or that lost what it had not read, would do as well.
-/

set_option autoImplicit false

namespace BoardBench

/-- A reader at this stage does not go on. -/
def Stage.IsOver : Stage → Prop
  | .hanging => True
  | .finished => True
  | .failed _ => True
  | _ => False

/-! ## The end of a phase that fails -/

theorem Phase.reader_of_failure? {σ : Type} {p : Phase σ} {e : BenchError}
    (h : p.failure? = some e) :
    ∃ s, (p.reader s).stage = .failed e ∧
      (s = .second → ∀ e', (p.reader .first).stage ≠ .failed e') := by
  unfold failure? at h
  split at h
  · rename_i hs
    cases h
    exact ⟨.first, hs, fun hne => by cases hne⟩
  · rename_i hs hfirst
    cases h
    exact ⟨.second, hs, fun _ e' he' => hfirst e' he'⟩
  · cases h

namespace Course

open ScriptedLink

variable {b : Bracket} {l₀ : Side → ScriptedLink} {began capacity horizon : Nat}
  {c d : Course ScriptedLink} {side : Side} {e : BenchError}

theorem RoundEnd.standing (h : d.RoundEnd b l₀ began) (side : Side)
    (hs : (d.phase.reader side).stage ≠ .ready) :
    ∃ n, ((l₀ side).write b.start).Standing b began d.phase.now n (d.phase.reader side) := by
  obtain ⟨rs, es, hp, ht⟩ := h.timed side
  exact ⟨rs.length, hp.standing ht hs⟩

/-- A reader that has not started yet: no time has passed, and its link is as it was. -/
theorem RoundEnd.of_ready (h : d.RoundEnd b l₀ began)
    (hs : (d.phase.reader side).stage = .ready) :
    d.phase.now = began ∧ (d.phase.reader side).link = l₀ side := by
  obtain ⟨rs, es, hp, ht⟩ := h.timed side
  generalize d.phase.reader side = r at hp ht hs
  cases hp with
  | ready => exact ⟨ht.symm, rfl⟩
  | _ => cases hs

/-- **A phase in which a reader has a fault in time fails**, be it at this one or at another. -/
theorem RoundStart.run_fails (h : c.RoundStart b l₀ began capacity) (hpos : 0 < capacity)
    (hf : ((l₀ side).write b.start).fault? b = some e)
    (ht : began + ((l₀ side).write b.start).endMs b < horizon) :
    ∃ d e, c.run b capacity horizon = (.failed e, d) ∧ d.RoundEnd b l₀ began ∧
      d.phase.failure? = some e := by
  obtain ⟨d, hend, hlast⟩ := h.run hpos horizon
  rcases hrun : c.run b capacity horizon with ⟨close, d'⟩
  rw [hrun] at hlast
  cases hlast with
  | failed hfail => exact ⟨_, _, rfl, hend, hfail⟩
  | complete hok hc =>
    -- a reader with a fault ahead of it never gets through
    obtain ⟨n, hstand⟩ := hend.standing side (hend.started hok side)
    have hpos := hstand.position
    rw [(Phase.isComplete_iff.1 hc).1 side, Position, hf] at hpos
    cases hpos.2.1
  | late hok hl =>
    obtain ⟨n, hstand⟩ := hend.standing side (hend.started hok side)
    have := hstand.not_late hf
    omega
  | still hok _ ha hd =>
    -- the read that finds the fault, or one before it, is due in time
    obtain ⟨n, hstand⟩ := hend.standing side (hend.started hok side)
    obtain ⟨-, hwaits, -⟩ := hend.quiet hok ha
    obtain ⟨u, hu, hlt, hle⟩ := hstand.due_of_fault (hwaits side) hf
    obtain ⟨t, htdue, -, htu⟩ := Phase.nextDue?_spec hu hlt
    have := hd t htdue
    omega

/-! ### The first turn of a phase -/

/-- The first reader in its first turn, before anybody else had one: it puts what it hears into the
queue, one event for each step that it takes. -/
structure Alone (b : Bracket) (l : ScriptedLink) (began budget : Nat)
    (second : Reader ScriptedLink) (c : Course ScriptedLink) : Prop where
  history : ∃ rs es, Progress b l rs es (c.phase.reader .first) ∧
    (c.phase.reader .first).OnTime began began rs ∧
    c.phase.queue.length + (c.phase.reader .first).held.length = es.length
  now : c.phase.now = began
  spent : c.phase.queue.length + c.pace.allowance = budget
  second : c.phase.reader .second = second
  line : c.line = []
  promised : c.promised = []

variable {l : ScriptedLink} {budget : Nat} {second : Reader ScriptedLink}

theorem Alone.acts (h : c.Alone b l began budget second) (hd : l.delayMs = 0)
    (ha : Acts b capacity c (.reader .first) d) : d.Alone b l began budget second := by
  obtain ⟨rs, es, hp, ht, hlen⟩ := h.history
  have hnow := h.now
  -- There is no case of merging to speak of: the actor is the reader. Only handing over adds to the
  -- queue, and it spends what it adds.
  cases ha with
  | start hs =>
    have hheld : (c.phase.reader .first).held = [] := by simp [Reader.held, hs]
    obtain ⟨hstart, hnone⟩ := hp.start hs c.phase.now
    rw [hheld] at hlen
    refine ⟨⟨rs, es, hstart, ?_, ?_⟩, hnow, h.spent, h.second, h.line, h.promised⟩
    · rw [hnow]
      exact ht.start hs
    · show c.phase.queue.length + (Reader.start b c.phase.now (c.phase.reader .first)).held.length
        = es.length
      rw [hnone]
      exact hlen
  | @receive _ since hs hdue _ =>
    have hheld : (c.phase.reader .first).held = [] := by simp [Reader.held, hs]
    rw [hheld] at hlen
    -- a read without delay is free, so that the allowance stays
    have hfree : c.readSteps .first = 0 := by
      have hlink := (hp.scripted (by simp [hs])).link
      rw [readSteps, hlink, delayMs_read_afterReads]
      show min 1 l.delayMs = 0
      rw [hd]
      rfl
    obtain ⟨more, hmore, hwaited⟩ := hp.receive hs c.phase.now
    refine ⟨⟨rs ++ more, _, hmore, ?_, ?_⟩, hnow, ?_, h.second, h.line, h.promised⟩
    · rw [hnow] at hdue hwaited ⊢
      exact ht.receive hs hdue hwaited
    · show c.phase.queue.length +
        (Reader.receive b c.phase.now (c.phase.reader .first)).held.length = _
      rw [List.length_append]
      simp only [List.length_nil] at hlen
      omega
    · rw [hfree]
      exact h.spent
  | @deliver _ x hs _ _ hallow =>
    have hheld : (c.phase.reader .first).held = [x] := by simp [Reader.held, hs]
    rw [hheld, List.length_singleton] at hlen
    obtain ⟨hdel, hnone⟩ := hp.deliver hs c.phase.now
    have hspent := h.spent
    refine ⟨⟨rs, es, hdel, ?_, ?_⟩, hnow, ?_, h.second, h.line, ?_⟩
    · rw [hnow]
      exact ht.deliver hs
    · show (c.phase.queue ++ [_]).length + (⟨_, _⟩ : Reader ScriptedLink).held.length = es.length
      rw [hnone, List.length_append]
      exact hlen
    · have hpace : ((c.moved 1 ((c.phase.setReader
          ⟨(c.phase.reader .first).link, Reader.afterDelivery b c.phase.now x⟩ .first).enqueue
            (.first, x))).afterDelivery .first).pace.allowance = c.pace.allowance - 1 := by
        unfold afterDelivery
        dsimp only
        split <;> rfl
      rw [hpace]
      show (c.phase.queue ++ [_]).length + _ = budget
      rw [List.length_append, List.length_singleton]
      omega
    · show c.promised.erase .first = []
      rw [h.promised]
      rfl

/-- **Where the first turn ends.** Nothing stops a reader without delay before it has come to its
end, if what it hears fits into the queue and into the allowance of the round. -/
theorem Alone.over (h : c.Alone b l began budget second) (hd : l.delayMs = 0)
    (hroom : ((l.write b.start).heardIn b ((l.write b.start).reads b)).length ≤ capacity)
    (hbudget : ((l.write b.start).heardIn b ((l.write b.start).reads b)).length ≤ budget)
    (hnone : c.act? b capacity (.reader .first) = none) :
    (c.phase.reader .first).stage.IsOver := by
  obtain ⟨rs, es, hp, ht, hlen⟩ := h.history
  have hsent : (l.write b.start).delayMs = 0 := hd
  cases hs : (c.phase.reader .first).stage with
  | ready =>
    rw [act_of_acts (.start hs)] at hnone
    cases hnone
  | reading since =>
    have hlink := (hp.scripted (by simp [hs])).link
    have hdelay : (Link.read (c.phase.reader .first).link).delayMs = 0 := by
      rw [hlink, delayMs_read_afterReads, hsent]
    simp only [Reader.OnTime, hs] at ht
    have hdue : since + (Link.read (c.phase.reader .first).link).delayMs ≤ c.phase.now := by
      rw [hdelay, h.now]
      exact ht.2.1
    have hsteps : c.readSteps .first ≤ c.pace.allowance := by
      rw [readSteps, hdelay]
      exact Nat.zero_le _
    rw [act_of_acts (.receive hs hdue hsteps)] at hnone
    cases hnone
  | holding x =>
    -- the event is one of those that the reader hears, so that there is room for it and allowance
    have hfew : es.length ≤ ((l.write b.start).heardIn b ((l.write b.start).reads b)).length := by
      rw [(hp.scripted (by simp [hs])).heard]
      exact length_heardIn_mono (hp.standing ht (by simp [hs])).le_reads
    have hheld : (c.phase.reader .first).held = [x] := by simp [Reader.held, hs]
    rw [hheld, List.length_singleton] at hlen
    have hspent := h.spent
    have hfree : c.phase.queue.length < capacity := by omega
    have hhas : c.hasRoom capacity .first = true := by
      simpa [hasRoom, h.promised] using hfree
    rw [act_of_acts (.deliver hs hhas hfree (by omega))] at hnone
    cases hnone
  | hanging => trivial
  | finished => trivial
  | failed x => trivial

theorem Alone.position (h : c.Alone b l began budget second)
    (hover : (c.phase.reader .first).stage.IsOver) :
    ∃ n, (l.write b.start).Position b n (c.phase.reader .first).stage := by
  obtain ⟨rs, es, hp, -, -⟩ := h.history
  refine ⟨rs.length, (hp.scripted fun hs => ?_).position⟩
  rw [hs] at hover
  exact hover

/-- A reader that is to fail before it waits has failed by then. -/
theorem Alone.fails (h : c.Alone b l began budget second) (hd : l.delayMs = 0)
    (hf : (l.write b.start).fault? b = some e)
    (hroom : ((l.write b.start).heardIn b ((l.write b.start).passed b)).length ≤ capacity)
    (hbudget : ((l.write b.start).heardIn b ((l.write b.start).passed b)).length ≤ budget)
    (hnone : c.act? b capacity (.reader .first) = none) :
    (c.phase.reader .first).stage = .failed e := by
  rw [← heardIn_reads_of_fault hf] at hroom hbudget
  have hover := h.over hd hroom hbudget hnone
  obtain ⟨n, hpos⟩ := h.position hover
  generalize (c.phase.reader .first).stage = stage at hover hpos
  cases stage with
  | hanging =>
    rw [Position, hf] at hpos
    cases hpos.2.1
  | finished =>
    rw [Position, hf] at hpos
    cases hpos.2.1
  | failed x =>
    rw [Position, hf] at hpos
    rw [Option.some.inj hpos.2.1]
  | _ => exact hover.elim

/-- **A first reader that fails before it waits is alone with its failure.** -/
theorem Alone.run (h : c.Alone b l began budget second) (hd : l.delayMs = 0)
    (hf : (l.write b.start).fault? b = some e)
    (hroom : ((l.write b.start).heardIn b ((l.write b.start).passed b)).length ≤ capacity)
    (hbudget : ((l.write b.start).heardIn b ((l.write b.start).passed b)).length ≤ budget)
    (hlead : c.lead = .reader .first) (hsound : c.phase.failure? = none) :
    ∃ d, c.run b capacity horizon = (.failed e, d) ∧
      (d.phase.reader .first).stage = .failed e ∧ d.phase.reader .second = second := by
  obtain ⟨d, hd', hnone, hturn⟩ := turn_ends (P := fun d => d.Alone b l began budget second)
    (fun hc ha => hc.acts hd ha) h
  have hs := hd'.fails hd hf hroom hbudget hnone
  have hrest : d.rest (.reader .first) = d := by
    simp only [rest, hs]
  have hfail : d.phase.failure? = some e := by
    have hs' : d.phase.first.stage = .failed e := hs
    simp [Phase.failure?, hs']
  -- the failure ends the round before another party has its turn
  have hround : (c.round b capacity).phase = d.phase := by
    show (c.turns b capacity c.lead.order).phase = d.phase
    rw [hlead, Party.order, turns_cons, if_neg (by simp [hsound]), hturn, hrest,
      turns_of_failed (by simp [hfail])]
  refine ⟨c.round b capacity, ?_, by rw [hround]; exact hs, by rw [hround]; exact hd'.second⟩
  rw [Course.run]
  simp only [hround, hfail]

end Course

/-! ## What a session makes of it -/

namespace Session

open ScriptedLink

/-- The link of a side once the start command is sent. -/
def sent (b : Bracket) (s : Session ScriptedLink) (side : Side) : ScriptedLink :=
  (s.link side).write b.start

/-- No read of the one link ends at the same instant as a read of the other, later than at once. -/
def ReadsApart (b : Bracket) (l m : ScriptedLink) : Prop :=
  ∀ i ≤ l.reads b, ∀ j ≤ m.reads b, i * l.delayMs = j * m.delayMs → i * l.delayMs = 0

/-- A phase that ended with an error as it should: with the fault of the reader that fails earliest,
at the instant at which it does. -/
structure Aborted (settings : PhaseSettings) (b : Bracket) (s : Session ScriptedLink) (side : Side)
    (e : BenchError) (s' : Session ScriptedLink) : Prop where
  /-- The error names the link of this side, and quotes the item that its reader does not pass. -/
  blames : Blames (s.sent b side).name (s.sent b side).pending[(s.sent b side).passed b]? e
  earliest : ∀ e', (s.sent b side.other).fault? b = some e' →
    (s.sent b side).endMs b ≤ (s.sent b side.other).endMs b
  ends : s'.clock.now = s.clock.now + (s.sent b side).endMs b
  /-- Everything up to the item at fault is gone. -/
  consumed : s'.link side = (s.sent b side).afterReads ((s.sent b side).passed b + 1)
  /-- The other link has given away what was read by then and nothing else. -/
  left : side = .first ∧ (s.sent b side).endMs b = 0 ∧ s'.second = s.second ∨
    ∃ n ≤ (s.sent b side.other).reads b,
      s'.link side.other = (s.sent b side.other).afterReads n ∧
        (0 < (s.sent b side).endMs b ∨ 0 < (s.sent b side.other).delayMs →
          n = (s.sent b side.other).readsBy b ((s.sent b side).endMs b))
  /-- At once the first reader comes first, as far as the round lets it go on. -/
  leads : ∀ e', (s.sent b .first).fault? b = some e' → (s.sent b .first).endMs b = 0 →
    ((s.sent b .first).heardIn b ((s.sent b .first).passed b)).length ≤
      min (max 1 settings.channelCapacity) s.clock.pace.allowance →
    side = .first ∧ s'.second = s.second

variable {settings : PhaseSettings} {b : Bracket} {s : Session ScriptedLink}

theorem sent_eq (side : Side) :
    (Side.pick s.first s.second side).write b.start = s.sent b side := by
  cases side <;> rfl

theorem link_afterPhase {σ : Type} (d : Course σ) (side : Side) :
    (afterPhase d).link side = (d.phase.reader side).link := by
  cases side <;> rfl

/-- The course of a phase that a session begins. -/
theorem roundStart_course {σ : Type} [Link σ] {s : Session σ} {capacity : Nat} {p : Phase σ}
    (hp : Phase.begin? capacity s.clock.now s.first s.second = some p) :
    (s.course p).RoundStart b (Side.pick s.first s.second) s.clock.now capacity :=
  Course.roundStart_begin s.clock.pace hp

theorem now_course {σ : Type} {s : Session σ} {capacity : Nat} {p : Phase σ}
    (hp : Phase.begin? capacity s.clock.now s.first s.second = some p) :
    (s.course p).phase.now = s.clock.now := by
  rw [Phase.eq_of_begin? hp]
  rfl

theorem runPhase_of_failed {σ : Type} [Link σ] {settings : PhaseSettings} {limit : Limit}
    {s : Session σ} {p : Phase σ} {d : Course σ} {e : BenchError}
    (hp : Phase.begin? (max 1 settings.channelCapacity) s.clock.now s.first s.second = some p)
    (hr : (s.course p).run b (max 1 settings.channelCapacity) (s.horizon settings limit) =
      (.failed e, d)) :
    s.runPhase settings limit b = (.failed e, afterPhase d) := by
  rw [runPhase_eq hp, hr]
  rfl

theorem ReadsApart.side (h : ReadsApart b (s.sent b .first) (s.sent b .second)) (side : Side) :
    ReadsApart b (s.sent b side) (s.sent b side.other) := by
  cases side with
  | first => exact h
  | second =>
    intro i hi j hj hij
    rw [hij]
    exact h j hj i hi hij.symm

variable {d : Course ScriptedLink} {side : Side} {e : BenchError}

/-- The failing side, at the end of the round in which it failed. -/
theorem fault_of_failed (hend : d.RoundEnd b (Side.pick s.first s.second) s.clock.now)
    (hs : (d.phase.reader side).stage = .failed e) :
    (s.sent b side).fault? b = some e ∧ d.phase.now = s.clock.now + (s.sent b side).endMs b ∧
      (d.phase.reader side).link = (s.sent b side).afterReads ((s.sent b side).passed b + 1) := by
  obtain ⟨n, hstand⟩ := hend.standing side (by simp [hs])
  rw [sent_eq] at hstand
  exact hstand.of_failed hs

/-- The other side, at the end of that round. -/
theorem left_of_failed (hend : d.RoundEnd b (Side.pick s.first s.second) s.clock.now)
    (hs : (d.phase.reader side).stage = .failed e)
    (hapart : ReadsApart b (s.sent b side) (s.sent b side.other)) :
    side = .first ∧ (s.sent b side).endMs b = 0 ∧ (afterPhase d).second = s.second ∨
      ∃ n ≤ (s.sent b side.other).reads b,
        (afterPhase d).link side.other = (s.sent b side.other).afterReads n ∧
          (0 < (s.sent b side).endMs b ∨ 0 < (s.sent b side.other).delayMs →
            n = (s.sent b side.other).readsBy b ((s.sent b side).endMs b)) := by
  obtain ⟨-, hnow, -⟩ := fault_of_failed hend hs
  by_cases hready : (d.phase.reader side.other).stage = .ready
  · left
    cases side with
    | second => exact absurd hready hend.startedFirst
    | first =>
      obtain ⟨hstart, hlink⟩ := hend.of_ready hready
      exact ⟨rfl, by omega, hlink⟩
  · right
    obtain ⟨n, hstand⟩ := hend.standing side.other hready
    rw [sent_eq] at hstand
    refine ⟨n, hstand.le_reads, by rw [link_afterPhase]; exact hstand.link, fun hlong => ?_⟩
    have htime : d.phase.now - s.clock.now = (s.sent b side).endMs b := by omega
    rw [← htime]
    refine hstand.eq_readsBy (by omega) fun j hj heq => ?_
    have := hapart _ (Nat.le_refl _) j hj (by rw [heq, htime]; rfl)
    have hzero : (s.sent b side).endMs b = 0 := this
    omega

theorem alone_begin {p : Phase ScriptedLink} {capacity : Nat}
    (hp : Phase.begin? capacity s.clock.now s.first s.second = some p) :
    (s.course p).Alone b s.first s.clock.now s.clock.pace.allowance ⟨s.second, .ready⟩ := by
  obtain rfl := Phase.eq_of_begin? hp
  exact ⟨⟨[], [], .ready, rfl, rfl⟩, rfl, Nat.zero_add _, rfl, rfl, rfl⟩

/-- The first reader fails first if it does so at once and nothing makes it pause. -/
theorem run_of_first (horizon : Nat) {p : Phase ScriptedLink} {capacity : Nat} {e' : BenchError}
    (hp : Phase.begin? capacity s.clock.now s.first s.second = some p)
    (hf : (s.sent b .first).fault? b = some e') (hz : (s.sent b .first).endMs b = 0)
    (hfew : ((s.sent b .first).heardIn b ((s.sent b .first).passed b)).length ≤
      min capacity s.clock.pace.allowance) :
    ∃ d, (s.course p).run b capacity horizon = (.failed e', d) ∧
      (d.phase.reader .first).stage = .failed e' ∧
      d.phase.reader .second = ⟨s.second, .ready⟩ := by
  have hdelay : (s.sent b .first).delayMs = 0 := by
    rw [endMs, reads_of_fault hf] at hz
    exact (Nat.mul_eq_zero.1 hz).resolve_left (Nat.succ_ne_zero _)
  have hstart := roundStart_course (b := b) hp
  exact (alone_begin hp).run hdelay hf (Nat.le_trans hfew (Nat.min_le_left _ _))
    (Nat.le_trans hfew (Nat.min_le_right _ _)) rfl hstart.sound

theorem aborted_of_fault (hcap : max 1 settings.channelCapacity ≤ Phase.queueLimit)
    (hfault : ∃ side e, (s.sent b side).fault? b = some e ∧
      (s.sent b side).endMs b < settings.timeoutMs)
    (hapart : ReadsApart b (s.sent b .first) (s.sent b .second)) :
    ∃ side e s', s.runPhase settings none b = (.failed e, s') ∧
      (s.sent b side).fault? b = some e ∧ Aborted settings b s side e s' := by
  have hpos := capacity_pos settings
  have hp := begin_newPhase (s := s) hcap
  have hstart := roundStart_course (b := b) hp
  obtain ⟨side₀, e₀, hf, ht⟩ := hfault
  rw [← sent_eq] at hf ht
  have hhorizon : s.horizon settings none = s.clock.now + settings.timeoutMs := Nat.min_self _
  have hearly : s.clock.now + ((Side.pick s.first s.second side₀).write b.start).endMs b <
      s.horizon settings none := by omega
  -- some reader fails, though not necessarily the one with this fault: that is the side to blame
  obtain ⟨d, e, hrun, hend, hfail⟩ := hstart.run_fails hpos hf hearly
  obtain ⟨side, hs, hsecond⟩ := Phase.reader_of_failure? hfail
  obtain ⟨hfe, hnow, hlink⟩ := fault_of_failed hend hs
  refine ⟨side, e, _, runPhase_of_failed hp hrun, hfe, ?_, ?_, hnow, ?_,
    left_of_failed hend hs (hapart.side side), ?_⟩
  · exact blames_of_fault hfe
  · intro e' he'
    by_cases hready : (d.phase.reader side.other).stage = .ready
    · have := (hend.of_ready hready).1
      omega
    · obtain ⟨n, hstand⟩ := hend.standing side.other hready
      rw [sent_eq] at hstand
      have := hstand.not_late he'
      omega
  · rw [link_afterPhase]
    exact hlink
  · intro e' he' hz hfew
    obtain ⟨d', hrun', hs', hother⟩ := run_of_first (s.horizon settings none) hp he' hz hfew
    rw [hrun] at hrun'
    cases hrun'
    refine ⟨?_, by rw [show (afterPhase d).second = (d.phase.reader .second).link from rfl, hother]⟩
    cases side with
    | first => rfl
    | second => exact absurd hs' (hsecond rfl _)

/-! ### Which errors there are -/

/-- The errors that a phase on two links can end with: what a link reports, an empty or a malformed
line of one of them, no stop message in time, or a queue that cannot be made. -/
inductive EndsPhase {σ : Type} [Link σ] (s' : Session σ) : BenchError → Prop
  | link (e : LinkError) : EndsPhase s' (.link e)
  | emptyLine (side : Side) : EndsPhase s' (.emptyLine (Link.name (s'.link side)))
  | line (side : Side) (e : LineError) : EndsPhase s' (.line (Link.name (s'.link side)) e)
  | incomplete (start : String) (timeoutMs : Nat) (pending : List String) (collected : Nat) :
      EndsPhase s' (.phaseIncomplete start timeoutMs pending collected)
  | queueTooLarge (capacity : Nat) : EndsPhase s' (.queueTooLarge capacity)

section Errors

variable {σ : Type} [Link σ] {settings : PhaseSettings} {limit : Limit} {b : Bracket}
  {s s' : Session σ} {e : BenchError}

theorem failed_of_progress {l₀ : σ} {rs : List Reception} {es : List Event} {r : Reader σ}
    (h : Progress b l₀ rs es r) (hs : r.stage = .failed e) :
    (∃ x, e = .link x) ∨ e = .emptyLine (Link.name r.link) ∨
      ∃ x, e = .line (Link.name r.link) x := by
  cases h with
  | refused _ =>
    cases hs
    exact Or.inl ⟨_, rfl⟩
  | broken _ _ =>
    cases hs
    exact Or.inl ⟨_, rfl⟩
  | faulty _ _ hh =>
    cases hs
    right
    unfold Heard.ofLine at hh
    split at hh
    · cases hh
      exact Or.inl rfl
    · split at hh
      · cases hh
      · split at hh
        · cases hh
        · cases hh
        · cases hh
          exact Or.inr ⟨_, rfl⟩
  | _ => cases hs

/-- A phase that begins has a queue, so that it ends for another reason. -/
theorem endsPhase_of_begin {p : Phase σ}
    (hp : Phase.begin? (max 1 settings.channelCapacity) s.clock.now s.first s.second = some p)
    (h : s.runPhase settings limit b = (.failed e, s')) :
    EndsPhase s' e ∧ ∀ capacity, e ≠ .queueTooLarge capacity := by
  have hstart := roundStart_course (b := b) hp
  obtain ⟨d, hend, hlast⟩ := hstart.run (capacity_pos settings) (s.horizon settings limit)
  rw [runPhase_eq hp] at h
  rcases hrun : (s.course p).run b (max 1 settings.channelCapacity)
    (s.horizon settings limit) with ⟨close, d'⟩
  rw [hrun] at h hlast
  dsimp only at h hlast
  obtain ⟨hending, rfl⟩ := Prod.mk.inj h
  -- the last round was cut short by a reader that failed, or else every error is what the deadline
  -- says
  cases hlast with
  | failed hfail =>
    cases hending
    obtain ⟨side, hs, -⟩ := Phase.reader_of_failure? hfail
    obtain ⟨rs, es, hprog, -⟩ := hend.timed side
    rcases failed_of_progress hprog hs with ⟨x, rfl⟩ | rfl | ⟨x, rfl⟩
    · exact ⟨.link x, fun _ h => by cases h⟩
    · rw [← link_afterPhase]
      exact ⟨.emptyLine side, fun _ h => by cases h⟩
    · rw [← link_afterPhase]
      exact ⟨.line side x, fun _ h => by cases h⟩
  | complete _ _ => cases hending
  | late _ _ =>
    simp only [phaseEnding] at hending
    split at hending
    · cases hending
      exact ⟨.incomplete .., fun _ h => by cases h⟩
    · cases hending
  | still _ _ _ _ =>
    simp only [phaseEnding] at hending
    split at hending
    · cases hending
      exact ⟨.incomplete .., fun _ h => by cases h⟩
    · cases hending

theorem endsPhase_of_runPhase (h : s.runPhase settings limit b = (.failed e, s')) :
    EndsPhase s' e := by
  cases hp : Phase.begin? (max 1 settings.channelCapacity) s.clock.now s.first s.second with
  | none =>
    simp only [runPhase, hp] at h
    cases h
    exact .queueTooLarge _
  | some p => exact (endsPhase_of_begin hp h).1

end Errors

/-! ### The whole of it -/

/-- **A reader that fails ends the phase, at once, with its own error.** If some reader of two
scripted links has a fault before the time is up, the phase ends as `Aborted` says. And on any
links a phase that fails blames a link, or says that there was no stop message in time or no queue
to begin with; that a reader found nobody to deliver to is not among the errors. -/
theorem phase_ends_at_earliest_fault :
    (∀ (settings : PhaseSettings) (b : Bracket) (s : Session ScriptedLink),
      max 1 settings.channelCapacity ≤ Phase.queueLimit →
      (∃ side e, (s.sent b side).fault? b = some e ∧
        (s.sent b side).endMs b < settings.timeoutMs) →
      ReadsApart b (s.sent b .first) (s.sent b .second) →
      ∃ side e s', s.runPhase settings none b = (.failed e, s') ∧
        (s.sent b side).fault? b = some e ∧ Aborted settings b s side e s') ∧
    ∀ (σ : Type) [Link σ] (settings : PhaseSettings) (limit : Limit) (b : Bracket)
      (s s' : Session σ) (e : BenchError),
      s.runPhase settings limit b = (.failed e, s') → EndsPhase s' e :=
  ⟨fun _ _ _ hcap hfault hapart => aborted_of_fault hcap hfault hapart,
    fun _ _ _ _ _ _ _ _ h => endsPhase_of_runPhase h⟩

/-- The phase of the examples. -/
def goBracket : Bracket := ⟨"go", "end"⟩

/-- The second reader fails while the first one still waits for its second line. -/
def overtaken : Session ScriptedLink where
  first := ({ name := "a", delayMs := 3 } : ScriptedLink).respond
    "go" ["go", "[1] <inf> sut: x", "[2] <inf> sut: end"]
  second := ({ name := "b", delayMs := 5 } : ScriptedLink).respond "go" ["faulty"]

theorem overtaken_aborts :
    (∃ side e s', overtaken.runPhase {} none goBracket = (.failed e, s') ∧
      (overtaken.sent goBracket side).fault? goBracket = some e ∧
      Aborted {} goBracket overtaken side e s') ∧
    ∃ e s', overtaken.runPhase { channelCapacity := Phase.queueLimit + 1 } none goBracket =
        (.failed e, s') ∧
      EndsPhase s' e := by
  refine ⟨phase_ends_at_earliest_fault.1 {} goBracket overtaken (by decide) ?_ ?_, ?_⟩
  · exact ⟨.second, .line "b" (.missingFields "faulty"), by decide +kernel, by decide +kernel⟩
  · unfold ReadsApart
    decide +kernel
  · have htoo : overtaken.runPhase { channelCapacity := Phase.queueLimit + 1 } none goBracket =
        (.failed (.queueTooLarge (Phase.queueLimit + 1)), overtaken) := rfl
    exact ⟨_, _, htoo, phase_ends_at_earliest_fault.2 _ _ _ _ _ _ _ htoo⟩

/-! ### More events than a round allows -/

/-- The first reader has a fault, but not before it reported one event more than a round allows. -/
def crowded : Session ScriptedLink where
  first := ({ name := "a" } : ScriptedLink).respond
    "go" (List.replicate (quantum + 1) "[1] <inf> sut: x" ++ ["broken"])
  second := ({ name := "b" } : ScriptedLink).respond "go" ["faulty"]

/-- Settings under which the queue of that phase never fills. -/
def crowdedSettings : PhaseSettings := { timeoutMs := 1000, channelCapacity := 1000 }

/-- The phase on these links, before anything happened. -/
def crowdedPhase : Phase ScriptedLink where
  first := ⟨crowded.first, .ready⟩
  second := ⟨crowded.second, .ready⟩
  now := 0

/-- Both readers have a fault at the very start, and it is not the first one's that ends the phase:
the round is over before that reader gets to it. -/
theorem second_reader_fails_first_when_crowded :
    (crowded.sent goBracket .first).fault? goBracket =
        some (.line "a" (.missingFields "broken")) ∧
      (crowded.sent goBracket .first).endMs goBracket = 0 ∧
      (crowded.sent goBracket .second).endMs goBracket = 0 ∧
      ∃ s', crowded.runPhase crowdedSettings none goBracket =
          (.failed (.line "b" (.missingFields "faulty")), s') ∧
        s'.clock.now = 0 ∧ s'.second.written = ["go"] := by
  refine ⟨by decide +kernel, by decide +kernel, by decide +kernel, ?_⟩
  have hclose := Course.run_satisfies (b := goBracket) 1000 1 (c := crowded.course crowdedPhase)
    (P := fun r => r.1 = .failed (.line "b" (.missingFields "faulty")) ∧
      r.2.phase.now = 0 ∧ r.2.phase.second.link.written = ["go"])
    (by decide +kernel :
      (Course.runWithin goBracket 1000 (crowded.horizon crowdedSettings none) 1000 1
        (crowded.course crowdedPhase)).any _ = true)
  rcases hrun : (crowded.course crowdedPhase).run goBracket 1000
    (crowded.horizon crowdedSettings none) with ⟨close, d⟩
  rw [hrun] at hclose
  obtain ⟨rfl, hnow, hwritten⟩ := of_decide_eq_true hclose
  exact ⟨_, runPhase_of_failed (p := crowdedPhase) rfl hrun, hnow, hwritten⟩

end Session

end BoardBench
