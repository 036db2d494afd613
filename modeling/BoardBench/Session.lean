import BoardBench.IdleGate
import BoardBench.Phase.Schedule

/-!
# Sessions

A session is the bench at work on its two links: it drops stale input, waits until both devices are
idle, and runs phases, one after the other and always the first link before the second. The clock
goes on from one activity to the next, which begins in the round in which the one before it ended.
So a phase need not begin in a fresh round, and neither need a session: steps of its first round may
have gone to whoever set the bench up. What is said of a session is said for every clock it has.

An activity that its caller gives up has no result, but the links and the clock stay where it left
them.
-/

set_option autoImplicit false

namespace BoardBench

/-- Two links, and the clock. -/
structure Session (σ : Type) where
  first : σ
  second : σ
  clock : Clock := {}

namespace Session

variable {σ : Type}

def link (s : Session σ) : Side → σ
  | .first => s.first
  | .second => s.second

def after {ε α : Type} (s : Session σ) (r : Settled σ ε α) : Side → Session σ
  | .first => { s with first := r.link, clock := r.clock }
  | .second => { s with second := r.link, clock := r.clock }

def afterPhase (c : Course σ) : Session σ :=
  { first := c.phase.first.link, second := c.phase.second.link, clock := c.clock }

variable [Link σ]

def clearInput (s : Session σ) : Except BenchError Unit × Session σ :=
  match Link.clear s.first with
  | (.error e, link) => (.error (.link e), { s with first := link })
  | (.ok (), link) =>
    let s := { s with first := link }
    match Link.clear s.second with
    | (.error e, link) => (.error (.link e), { s with second := link })
    | (.ok (), link) => (.ok (), { s with second := link })

/-- Waits until the device of a side is idle, and answers at which attempt it was. -/
def waitUntilIdle (gate : IdleGate) (limit : Limit) (side : Side) (s : Session σ) :
    Ending BenchError Nat × Session σ :=
  let r := gate.waitUntilIdle limit (s.link side) s.clock
  (r.ending, s.after r side)

/-- Waits until both devices are idle. The second one is not asked before the first one is. -/
def ensureIdle (gate : IdleGate) (limit : Limit) (s : Session σ) :
    Ending BenchError Unit × Session σ :=
  match s.waitUntilIdle gate limit .first with
  | (.failed e, s) => (.failed e, s)
  | (.stalled, s) => (.stalled, s)
  | (.done _, s) =>
    match s.waitUntilIdle gate limit .second with
    | (.failed e, s) => (.failed e, s)
    | (.stalled, s) => (.stalled, s)
    | (.done _, s) => (.done (), s)

/-- The names of the links whose stop message has not been merged. -/
def pendingNames (b : Bracket) (p : Phase σ) : List String :=
  ([.first, .second].filter fun side => !p.hasStopped b side).map fun side =>
    Link.name (p.reader side).link

/-- How a closed phase ends that began at `began`. A phase whose time is up is incomplete, unless it
was given up before. -/
def phaseEnding (settings : PhaseSettings) (limit : Limit) (b : Bracket) (began : Nat)
    (p : Phase σ) : Phase.Close → Ending BenchError (List Event)
  | .complete => .done p.events
  | .failed e => .failed e
  | .timeUp =>
    if limit.allows (began + settings.timeoutMs) then
      .failed (.phaseIncomplete b.start settings.timeoutMs (pendingNames b p) p.log.size)
    else .stalled

/-- Runs a phase on both links and answers the merged events. The merge queue has room for at least
one event. -/
def runPhase (settings : PhaseSettings) (limit : Limit) (b : Bracket) (s : Session σ) :
    Ending BenchError (List Event) × Session σ :=
  let capacity := max 1 settings.channelCapacity
  let began := s.clock.now
  match Phase.begin? capacity began s.first s.second with
  | none => (.failed (.queueTooLarge capacity), s)
  | some p =>
    let course : Course σ := { phase := p, pace := s.clock.pace }
    let (close, c) := course.run b capacity (limit.earliest (began + settings.timeoutMs))
    (phaseEnding settings limit b began c.phase close, afterPhase c)

end Session

end BoardBench
