import BoardBench.Error
import BoardBench.Link

/-!
# Phases

A phase runs on both links at once. A reader per link sends the start command and then reads lines;
the events among them go into one bounded queue, from which a collector takes them into the merged
log. A reader is through when it has delivered the stop message, and any failure of a reader is the
failure of the phase.

`Move` lists what can happen next and `perform?` what it does; `Step` allows every order of moves.
Which order is taken in virtual time is the matter of `BoardBench.Phase.Schedule`.
-/

set_option autoImplicit false

namespace BoardBench

/-- The two links of a bench. -/
inductive Side where
  | first
  | second
deriving Repr, DecidableEq

def Side.other : Side → Side
  | .first => .second
  | .second => .first

def Side.pick {α : Type} (x y : α) : Side → α
  | .first => x
  | .second => y

theorem Side.eq_other_of_ne {s t : Side} (h : t ≠ s) : t = s.other := by
  cases s <;> cases t <;> first | rfl | exact absurd rfl h

/-- The command that starts a phase and the payload that ends it. -/
structure Bracket where
  start : String
  stop : String
deriving Repr, DecidableEq

/-- What a line means in a phase. -/
inductive Heard where
  | skipped
  | event (e : Event)
  | fault (e : BenchError)

/-- Reads a line from a port: echoes of the start command and banners are skipped, an empty or a
malformed line is a fault. -/
def Heard.ofLine (b : Bracket) (port line : String) : Heard :=
  if line.isEmpty then .fault (.emptyLine port)
  else if line == b.start then .skipped
  else
    match Line.parse line with
    | .ok (.event e) => .event e
    | .ok (.banner _) => .skipped
    | .error e => .fault (.line port e)

/-- Where a reader is: the command is still to be sent, a read is going on since some instant, it
never ends, an event waits for room in the queue, the stop message is delivered, or the reader
failed. -/
inductive Stage where
  | ready
  | reading (since : Nat)
  | hanging
  | holding (e : Event)
  | finished
  | failed (e : BenchError)
deriving Repr, DecidableEq

/-- The reader of one link. -/
structure Reader (σ : Type) where
  link : σ
  stage : Stage

namespace Reader

variable {σ : Type} [Link σ]

def start (b : Bracket) (now : Nat) (r : Reader σ) : Reader σ :=
  match Link.write b.start r.link with
  | (.ok (), link) => ⟨link, .reading now⟩
  | (.error e, link) => ⟨link, .failed (.link e)⟩

/-- Goes on with the read that is going on once it is due: with its outcome, if it ends. -/
def receive (b : Bracket) (now : Nat) (r : Reader σ) : Reader σ :=
  match Link.read r.link with
  | .never _ => ⟨r.link, .hanging⟩
  | .after _ (.error e) link => ⟨link, .failed (.link e)⟩
  | .after _ (.ok line) link =>
    match Heard.ofLine b (Link.name link) line with
    | .skipped => ⟨link, .reading now⟩
    | .event e => ⟨link, .holding e⟩
    | .fault e => ⟨link, .failed e⟩

/-- The stage behind the delivery of an event. -/
def afterDelivery (b : Bracket) (now : Nat) (e : Event) : Stage :=
  if e.payload = b.stop then .finished else .reading now

/-- A reader whose event nobody takes any more. -/
def turnedAway (r : Reader σ) : Reader σ :=
  ⟨r.link, .failed (.mergeClosed (Link.name r.link))⟩

/-- The instant at which the read that is going on looks at the device. -/
def due? (r : Reader σ) : Option Nat :=
  match r.stage with
  | .reading since => some (since + (Link.read r.link).delayMs)
  | _ => none

end Reader

/-- A phase under way: its readers, the events that wait to be merged, the merged log with the side
that each event came from, and the time. -/
structure Phase (σ : Type) where
  first : Reader σ
  second : Reader σ
  queue : List (Side × Event) := []
  log : Array (Side × Event) := #[]
  now : Nat

namespace Phase

variable {σ : Type}

def reader (p : Phase σ) : Side → Reader σ
  | .first => p.first
  | .second => p.second

def setReader (p : Phase σ) (r : Reader σ) : Side → Phase σ
  | .first => { p with first := r }
  | .second => { p with second := r }

@[simp] theorem reader_setReader_self (p : Phase σ) (r : Reader σ) (s : Side) :
    (p.setReader r s).reader s = r := by
  cases s <;> rfl

theorem reader_setReader_of_ne (p : Phase σ) (r : Reader σ) {s t : Side} (h : t ≠ s) :
    (p.setReader r s).reader t = p.reader t := by
  cases s <;> cases t <;> first | rfl | exact absurd rfl h

@[simp] theorem queue_setReader (p : Phase σ) (r : Reader σ) (s : Side) :
    (p.setReader r s).queue = p.queue := by
  cases s <;> rfl

@[simp] theorem log_setReader (p : Phase σ) (r : Reader σ) (s : Side) :
    (p.setReader r s).log = p.log := by
  cases s <;> rfl

@[simp] theorem now_setReader (p : Phase σ) (r : Reader σ) (s : Side) :
    (p.setReader r s).now = p.now := by
  cases s <;> rfl

def enqueue (x : Side × Event) (p : Phase σ) : Phase σ :=
  { p with queue := p.queue ++ [x] }

@[simp] theorem reader_enqueue (x : Side × Event) (p : Phase σ) :
    (p.enqueue x).reader = p.reader := by
  funext s
  cases s <;> rfl

@[simp] theorem queue_enqueue (x : Side × Event) (p : Phase σ) :
    (p.enqueue x).queue = p.queue ++ [x] := rfl

@[simp] theorem log_enqueue (x : Side × Event) (p : Phase σ) : (p.enqueue x).log = p.log := rfl

@[simp] theorem now_enqueue (x : Side × Event) (p : Phase σ) : (p.enqueue x).now = p.now := rfl

/-- Puts the front of the queue into the log; the rest stays queued. -/
def mergeFront (x : Side × Event) (rest : List (Side × Event)) (p : Phase σ) : Phase σ :=
  { p with queue := rest, log := p.log.push x }

@[simp] theorem reader_mergeFront (x : Side × Event) (rest : List (Side × Event)) (p : Phase σ) :
    (p.mergeFront x rest).reader = p.reader := by
  funext s
  cases s <;> rfl

@[simp] theorem queue_mergeFront (x : Side × Event) (rest : List (Side × Event)) (p : Phase σ) :
    (p.mergeFront x rest).queue = rest := rfl

@[simp] theorem log_mergeFront (x : Side × Event) (rest : List (Side × Event)) (p : Phase σ) :
    (p.mergeFront x rest).log = p.log.push x := rfl

@[simp] theorem now_mergeFront (x : Side × Event) (rest : List (Side × Event)) (p : Phase σ) :
    (p.mergeFront x rest).now = p.now := rfl

def events (p : Phase σ) : List Event :=
  p.log.toList.map (·.2)

/-- The stop message of a side has been merged. -/
def hasStopped (b : Bracket) (p : Phase σ) (s : Side) : Bool :=
  p.log.any fun (side, e) => side == s && e.payload == b.stop

/-- The failure of a reader, of the first one if both failed. -/
def failure? (p : Phase σ) : Option BenchError :=
  match p.first.stage, p.second.stage with
  | .failed e, _ => some e
  | _, .failed e => some e
  | _, _ => none

/-- Both readers are through, and all events are merged. -/
def isComplete (p : Phase σ) : Bool :=
  p.first.stage == .finished && p.second.stage == .finished && p.queue.isEmpty

/-- The collector has left its end of the queue. It goes on for as long as events can still come,
and no longer. -/
def isClosed (p : Phase σ) : Bool :=
  p.isComplete

/-- **A reader that has something to deliver keeps the queue open**, since it is not through. -/
theorem isClosed_of_holding {p : Phase σ} {s : Side} {e : Event}
    (h : (p.reader s).stage = .holding e) : p.isClosed = false := by
  cases s <;> simp only [reader] at h <;> simp [isClosed, isComplete, h]

/-- No merge queue has room for more events than this. -/
def queueLimit : Nat := (UInt64.size - 1) >>> 3

/-- A phase on two links before anything happened. There is none if the queue cannot be made. -/
def begin? (capacity now : Nat) (first second : σ) : Option (Phase σ) :=
  if 0 < capacity ∧ capacity ≤ queueLimit then
    some { first := ⟨first, .ready⟩, second := ⟨second, .ready⟩, now := now }
  else none

/-! ## Moves -/

/-- What can happen next in a phase. -/
inductive Move where
  | start (s : Side)
  | receive (s : Side)
  | deliver (s : Side)
  | merge
  | wait (instant : Nat)
deriving Repr, DecidableEq

variable [Link σ]

/-- Makes a move, if it is possible: only a ready reader starts, only a reader that reads receives,
an event needs room in the queue, and time does not go back. A reader that comes with an event to a
queue that is closed fails. -/
def perform? (b : Bracket) (capacity : Nat) (p : Phase σ) : Move → Option (Phase σ)
  | .start s =>
    match (p.reader s).stage with
    | .ready => some (p.setReader ((p.reader s).start b p.now) s)
    | _ => none
  | .receive s =>
    match (p.reader s).stage with
    | .reading _ => some (p.setReader ((p.reader s).receive b p.now) s)
    | _ => none
  | .deliver s =>
    match (p.reader s).stage with
    | .holding e =>
      if p.isClosed then some (p.setReader (p.reader s).turnedAway s)
      else if p.queue.length < capacity then
        let r : Reader σ := ⟨(p.reader s).link, Reader.afterDelivery b p.now e⟩
        some ((p.setReader r s).enqueue (s, e))
      else none
    | _ => none
  | .merge =>
    match p.queue with
    | x :: rest => some (p.mergeFront x rest)
    | [] => none
  | .wait instant => if p.now ≤ instant then some { p with now := instant } else none

/-- What a move does that is possible, one case for each kind. No reader is ever turned away. -/
inductive Moves (b : Bracket) (capacity : Nat) (p : Phase σ) : Move → Phase σ → Prop
  | start {s : Side} (hs : (p.reader s).stage = .ready) :
      Moves b capacity p (.start s) (p.setReader ((p.reader s).start b p.now) s)
  | receive {s : Side} {since : Nat} (hs : (p.reader s).stage = .reading since) :
      Moves b capacity p (.receive s) (p.setReader ((p.reader s).receive b p.now) s)
  | deliver {s : Side} {e : Event} (hs : (p.reader s).stage = .holding e)
      (hfree : p.queue.length < capacity) :
      Moves b capacity p (.deliver s)
        ((p.setReader ⟨(p.reader s).link, Reader.afterDelivery b p.now e⟩ s).enqueue (s, e))
  | merge {x : Side × Event} {rest : List (Side × Event)} (hq : p.queue = x :: rest) :
      Moves b capacity p .merge (p.mergeFront x rest)
  | wait {instant : Nat} (ht : p.now ≤ instant) :
      Moves b capacity p (.wait instant) { p with now := instant }

theorem moves_of_perform {b : Bracket} {capacity : Nat} {p q : Phase σ} {m : Move}
    (h : p.perform? b capacity m = some q) : Moves b capacity p m q := by
  cases m with
  | start s =>
    simp only [perform?] at h
    split at h
    · cases h
      exact .start ‹_›
    · cases h
  | receive s =>
    simp only [perform?] at h
    split at h
    · cases h
      exact .receive ‹_›
    · cases h
  | deliver s =>
    simp only [perform?] at h
    split at h
    · rename_i e hs
      -- the one place where it matters that the queue is open
      rw [isClosed_of_holding hs, if_neg Bool.false_ne_true] at h
      split at h
      · cases h
        exact .deliver hs ‹_›
      · cases h
    · cases h
  | merge =>
    simp only [perform?] at h
    split at h
    · cases h
      exact .merge ‹_›
    · cases h
  | wait instant =>
    simp only [perform?] at h
    split at h
    · cases h
      exact .wait ‹_›
    · cases h

theorem Moves.perform {b : Bracket} {capacity : Nat} {p q : Phase σ} {m : Move}
    (h : Moves b capacity p m q) : p.perform? b capacity m = some q := by
  cases h with
  | start hs => simp [perform?, hs]
  | receive hs => simp [perform?, hs]
  | deliver hs hfree => simp [perform?, hs, hfree, isClosed_of_holding hs]
  | merge hq => simp [perform?, hq]
  | wait ht => simp [perform?, ht]

/-- One move, whichever it is. -/
def Step (b : Bracket) (capacity : Nat) (p q : Phase σ) : Prop :=
  ∃ m, p.perform? b capacity m = some q

end Phase

end BoardBench
