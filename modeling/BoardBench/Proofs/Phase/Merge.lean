import BoardBench.Link.Scripted
import BoardBench.Proofs.Interleaving
import BoardBench.Proofs.Phase.Bounded
import BoardBench.Proofs.Phase.Runs
import BoardBench.Proofs.Phase.Stream
import BoardBench.Session

/-!
# The merge — a complete phase loses, repeats and reorders nothing

Two readers and a collector share a bounded queue, and nothing is said about whose turn it is. In
every state that some order of moves reaches, the events of a side that are merged or queued are
those that its reader has delivered (`Phase.Tracked`); in a complete phase the readers are through
and the queue is empty, so that the log is all there is. **`Phase.mergesStreams_of_isComplete` says
so for every schedule**, and the phase that a session runs is one of them.

Completeness is asked for at the end only, and this is what makes the statement easy: on the way
there a log is an interleaving of what was delivered so far, minus what is still queued, and no
reader need be anywhere in particular. The two streams are told apart by the sides that the entries
of the queue and the log carry (`Side.part`), and not by the devices in the events, since nothing
keeps two devices from calling themselves the same.

The second half of the module brings the phase that a session runs to this form. What it says about
`runPhase` is used by every module about sessions: which course is run, when there is no queue to
begin with, and that only a complete phase is done.
-/

set_option autoImplicit false

namespace BoardBench

variable {σ : Type} [Link σ]

/-- The log mixes what was streamed from two links, and leaves the links right behind that. -/
def MergesStreams (b : Bracket) (first second : σ) (log : List Event) (first' second' : σ) : Prop :=
  ∃ es fs lines lines', Interleaving es fs log ∧ log.length = es.length + fs.length ∧
    Streamed b first lines es first' ∧ Streamed b second lines' fs second'

/-! ## Lists with two sides -/

namespace Side

variable {α : Type}

/-- What of a list with sides is of one of them. -/
def part (s : Side) (xs : List (Side × α)) : List α :=
  (xs.filter (·.1 == s)).map (·.2)

theorem mem_part {s : Side} {xs : List (Side × α)} {x : Side × α} (hx : x ∈ xs) (hs : x.1 = s) :
    x.2 ∈ s.part xs :=
  List.mem_map_of_mem (List.mem_filter.2 ⟨hx, by simp [hs]⟩)

theorem part_second (xs : List (Side × α)) :
    Side.second.part xs = (xs.filter fun x => !(x.1 == Side.first)).map (·.2) := by
  have hs : (fun x : Side × α => x.1 == Side.second) = fun x => !(x.1 == Side.first) := by
    funext ⟨s, x⟩
    cases s <;> rfl
  rw [part, hs]

theorem interleaving_part (xs : List (Side × α)) :
    Interleaving (Side.first.part xs) (Side.second.part xs) (xs.map (·.2)) := by
  rw [part_second]
  exact interleaving_of_tagged (· == Side.first) xs

end Side

/-! ## Complete phases -/

namespace Phase

variable {b : Bracket} {capacity now : Nat} {first second : σ} {p q : Phase σ}

theorem tracked_begin (h : begin? capacity now first second = some p) :
    p.Tracked b (Side.pick first second) := by
  obtain rfl := eq_of_begin? h
  rintro (_ | _) <;> exact ⟨[], .ready⟩

theorem Tracked.reaches {l₀ : Side → σ} (h : p.Tracked b l₀) (hr : Reaches b capacity p q) :
    q.Tracked b l₀ := by
  induction hr with
  | refl => exact h
  | tail _ hstep ih =>
    obtain ⟨m, hm⟩ := hstep
    exact ih.perform hm

omit [Link σ] in
theorem isComplete_iff :
    p.isComplete = true ↔ (∀ s, (p.reader s).stage = .finished) ∧ p.queue = [] := by
  simp only [isComplete, Bool.and_eq_true, beq_iff_eq, List.isEmpty_iff]
  constructor
  · rintro ⟨⟨hf, hs⟩, hq⟩
    exact ⟨fun s => by cases s <;> assumption, hq⟩
  · rintro ⟨hs, hq⟩
    exact ⟨⟨hs .first, hs .second⟩, hq⟩

omit [Link σ] in
/-- With nothing left in the queue, the log mixes what the two readers delivered. -/
theorem interleaving_events (hq : p.queue = []) :
    Interleaving (p.delivered .first) (p.delivered .second) p.events := by
  simpa [Side.part, delivered, events, hq] using Side.interleaving_part p.log.toList

/-- **However the readers and the collector take turns**, a complete phase has merged two
streams. -/
theorem mergesStreams_of_isComplete (h : begin? capacity now first second = some p)
    (hr : Reaches b capacity p q) (hc : q.isComplete = true) :
    MergesStreams b first second q.events q.first.link q.second.link := by
  have htracked := (tracked_begin (b := b) h).reaches hr
  obtain ⟨hs, hq⟩ := isComplete_iff.1 hc
  -- readers that are through hold nothing, so all that they heard is delivered
  have hstream : ∀ s, ∃ lines,
      Streamed b (Side.pick first second s) lines (q.delivered s) (q.reader s).link := by
    intro s
    obtain ⟨rs, hp⟩ := htracked s
    have hheld : (q.reader s).held = [] := by simp [Reader.held, hs s]
    rw [hheld, List.append_nil] at hp
    exact hp.streamed (hs s)
  obtain ⟨lines, hlines⟩ := hstream .first
  obtain ⟨lines', hlines'⟩ := hstream .second
  have hmerge := interleaving_events hq
  exact ⟨_, _, lines, lines', hmerge, hmerge.length_eq, hlines, hlines'⟩

end Phase

/-! ## The phase that a session runs -/

namespace Session

variable {settings : PhaseSettings} {limit : Limit} {b : Bracket} {s s' : Session σ}

/-- The course of a phase that a session begins: it goes on in the round that the session is in. -/
def course (s : Session σ) (p : Phase σ) : Course σ :=
  { phase := p, pace := s.clock.pace }

/-- The instant at which a phase that a session begins is given up. -/
def horizon (settings : PhaseSettings) (limit : Limit) (s : Session σ) : Nat :=
  limit.earliest (s.clock.now + settings.timeoutMs)

/-- A phase on the links of a session, before anything happened. -/
def newPhase {σ : Type} (s : Session σ) : Phase σ where
  first := ⟨s.first, .ready⟩
  second := ⟨s.second, .ready⟩
  now := s.clock.now

theorem capacity_pos (settings : PhaseSettings) : 0 < max 1 settings.channelCapacity :=
  Nat.lt_of_lt_of_le Nat.one_pos (Nat.le_max_left _ _)

omit [Link σ] in
theorem begin_newPhase (hcap : max 1 settings.channelCapacity ≤ Phase.queueLimit) :
    Phase.begin? (max 1 settings.channelCapacity) s.clock.now s.first s.second = some s.newPhase :=
  if_pos ⟨capacity_pos settings, hcap⟩

/-- Without a queue there is no phase, and nothing has happened. -/
theorem runPhase_queueTooLarge (hcap : Phase.queueLimit < max 1 settings.channelCapacity) :
    s.runPhase settings limit b =
      (.failed (.queueTooLarge (max 1 settings.channelCapacity)), s) := by
  have hbegin : Phase.begin? (max 1 settings.channelCapacity) s.clock.now s.first s.second =
      none := if_neg (by omega)
  simp only [runPhase, hbegin]

theorem runPhase_eq {p : Phase σ}
    (hp : Phase.begin? (max 1 settings.channelCapacity) s.clock.now s.first s.second = some p) :
    s.runPhase settings limit b =
      let r := (s.course p).run b (max 1 settings.channelCapacity) (s.horizon settings limit)
      (phaseEnding settings limit b s.clock.now r.2.phase r.1, afterPhase r.2) := by
  simp only [runPhase, hp]
  rfl

theorem runPhase_of_complete {p : Phase σ} {c : Course σ}
    (hp : Phase.begin? (max 1 settings.channelCapacity) s.clock.now s.first s.second = some p)
    (hr : (s.course p).run b (max 1 settings.channelCapacity) (s.horizon settings limit) =
      (.complete, c)) :
    s.runPhase settings limit b = (.done c.phase.events, afterPhase c) := by
  rw [runPhase_eq hp, hr]
  rfl

theorem phaseEnding_eq_done {began : Nat} {p : Phase σ} {close : Phase.Close} {log : List Event}
    (h : phaseEnding settings limit b began p close = .done log) :
    close = .complete ∧ log = p.events := by
  cases close with
  | complete =>
    cases h
    exact ⟨rfl, rfl⟩
  | failed e => cases h
  | timeUp =>
    simp only [phaseEnding] at h
    split at h <;> cases h

/-- A phase that a session runs to its end is complete. -/
theorem complete_of_runPhase {log : List Event}
    (h : s.runPhase settings limit b = (.done log, s')) :
    ∃ p c, Phase.begin? (max 1 settings.channelCapacity) s.clock.now s.first s.second = some p ∧
      (s.course p).run b (max 1 settings.channelCapacity) (s.horizon settings limit) =
        (.complete, c) ∧
      log = c.phase.events ∧ s' = afterPhase c := by
  cases hp : Phase.begin? (max 1 settings.channelCapacity) s.clock.now s.first s.second with
  | none =>
    simp only [runPhase, hp] at h
    cases h
  | some p =>
    rw [runPhase_eq hp] at h
    obtain ⟨hending, hafter⟩ := Prod.mk.inj h
    obtain ⟨hclose, hlog⟩ := phaseEnding_eq_done hending
    exact ⟨p, _, rfl, Prod.ext hclose rfl, hlog, hafter.symm⟩

/-- Some order of moves led there. -/
theorem reaches_of_runPhase {log : List Event}
    (h : s.runPhase settings limit b = (.done log, s')) :
    ∃ p q, Phase.begin? (max 1 settings.channelCapacity) s.clock.now s.first s.second = some p ∧
      Phase.Reaches b (max 1 settings.channelCapacity) p q ∧ q.isComplete = true ∧
      log = q.events ∧ s'.first = q.first.link ∧ s'.second = q.second.link := by
  obtain ⟨p, c, hp, hrun, hlog, rfl⟩ := complete_of_runPhase h
  have hreach : Phase.Reaches b (max 1 settings.channelCapacity) p
      ((s.course p).run b (max 1 settings.channelCapacity) (s.horizon settings limit)).2.phase :=
    Phase.reached_run (c := s.course p) .refl
  obtain ⟨c', -, hlast⟩ := Course.run_lastRound (b := b) (s.horizon settings limit)
    (P := fun _ : Course σ => True) (fun _ _ => trivial) (fun _ _ _ _ _ => trivial)
    (c := s.course p) trivial
  rw [hrun] at hreach hlast
  exact ⟨p, c.phase, hp, hreach, hlast.isComplete, hlog, rfl, rfl⟩

/-- **No loss, no repetition, no reordering in the merge of two links.** In whichever order the
readers and the collector make their moves, and so in the phase that a session runs: a log that
comes out complete is an interleaving of the two streams, each of which ends with its only stop
message, and the links have been written to once and read exactly up to there. -/
theorem merged_log_interleaves_streams (b : Bracket) :
    (∀ (capacity now : Nat) (first second : σ) (p q : Phase σ),
      Phase.begin? capacity now first second = some p → Phase.Reaches b capacity p q →
      q.isComplete = true →
      MergesStreams b first second q.events q.first.link q.second.link) ∧
    ∀ (settings : PhaseSettings) (limit : Limit) (s s' : Session σ) (log : List Event),
      s.runPhase settings limit b = (.done log, s') →
      MergesStreams b s.first s.second log s'.first s'.second := by
  refine ⟨fun capacity now first second p q hp hr hc =>
    Phase.mergesStreams_of_isComplete hp hr hc, ?_⟩
  intro settings limit s s' log h
  obtain ⟨p, q, hp, hr, hc, rfl, hfirst, hsecond⟩ := reaches_of_runPhase h
  rw [hfirst, hsecond]
  exact Phase.mergesStreams_of_isComplete hp hr hc

/-! ### Two boards with stale input, an echo and a banner -/

/-- The phase that tests the controllers. -/
def rebootingBracket : Bracket := ⟨"can start", "can stop"⟩

/-- A board under test that reboots on the start command. A line of an earlier test is still there,
and one comes behind the stop message. The tester takes its time. -/
def rebooting : Session ScriptedLink where
  first := ({ name := "a", pending := [.line "[0] <inf> sut: stale"] } : ScriptedLink).respond
    "can start" ["can start", "*** boot ***", "[1] <inf> sut: x", "[2] <inf> sut: can stop",
      "[3] <inf> sut: late"]
  second := ({ name := "b", delayMs := 3 } : ScriptedLink).respond
    "can start" ["[1] <inf> tester: y", "[2] <inf> tester: can stop"]

/-- The phase on these boards, before anything happened. -/
def rebootingPhase : Phase ScriptedLink where
  first := ⟨rebooting.first, .ready⟩
  second := ⟨rebooting.second, .ready⟩
  now := 0

def rebootingLog : List Event :=
  [⟨0, .inf, "sut", "stale"⟩, ⟨1, .inf, "sut", "x"⟩, ⟨2, .inf, "sut", "can stop"⟩,
    ⟨1, .inf, "tester", "y"⟩, ⟨2, .inf, "tester", "can stop"⟩]

def rebootingSettings : PhaseSettings := { channelCapacity := 1 }

/-- The boards at work: both what some order of moves leads to and what the phase answers mix the
two streams. -/
theorem rebooting_log_interleaves :
    (∃ q, Phase.begin? 1 0 rebooting.first rebooting.second = some rebootingPhase ∧
      Phase.Reaches rebootingBracket 1 rebootingPhase q ∧ q.isComplete = true ∧
      MergesStreams rebootingBracket rebooting.first rebooting.second q.events
        q.first.link q.second.link) ∧
    ∃ s', rebooting.runPhase rebootingSettings none rebootingBracket = (.done rebootingLog, s') ∧
      MergesStreams rebootingBracket rebooting.first rebooting.second rebootingLog
        s'.first s'.second := by
  have hbegin : Phase.begin? 1 0 rebooting.first rebooting.second = some rebootingPhase := rfl
  have hreach : Phase.Reaches rebootingBracket 1 rebootingPhase
      ((rebooting.course rebootingPhase).run rebootingBracket 1
        (rebooting.horizon rebootingSettings none)).2.phase :=
    Phase.reached_run (c := rebooting.course rebootingPhase) .refl
  -- the run is what is computed here; what it comes to is then an instance of the theorem
  have hclose := Course.run_satisfies (b := rebootingBracket) 100 100
    (c := rebooting.course rebootingPhase)
    (P := fun r => r.1 = .complete ∧ r.2.phase.isComplete ∧ r.2.phase.events = rebootingLog)
    (by decide +kernel :
      (Course.runWithin rebootingBracket 1 (rebooting.horizon rebootingSettings none) 100 100
        (rebooting.course rebootingPhase)).any _ = true)
  rcases hrun : (rebooting.course rebootingPhase).run rebootingBracket 1
    (rebooting.horizon rebootingSettings none) with ⟨close, c⟩
  rw [hrun] at hclose hreach
  obtain ⟨rfl, hc, hlog⟩ := of_decide_eq_true hclose
  have hdone : rebooting.runPhase rebootingSettings none rebootingBracket =
      (.done c.phase.events, afterPhase c) :=
    runPhase_of_complete hbegin hrun
  rw [hlog] at hdone
  exact ⟨⟨c.phase, hbegin, hreach, hc,
      (merged_log_interleaves_streams rebootingBracket).1 1 0 _ _ _ _ hbegin hreach hc⟩,
    _, hdone, (merged_log_interleaves_streams rebootingBracket).2 _ _ _ _ _ hdone⟩

end Session

end BoardBench
