import BoardBench.Clock
import BoardBench.Phase.Work

/-!
# The course of a phase

The two readers and the collector of a phase share a clock, and so its rounds. In a round each of
them has one turn, in which it goes on as long as it need not wait and the allowance of the round
lasts. The first reader leads the first round of a phase, the second one the next, then the
collector, and so on; the others follow the leader in the same order.

A reader whose event finds no room gets in line, and room that a merge makes is promised to the
reader that is longest in line. A collector that finds the queue empty listens for the next event. A
delivery that is listened for and a promise of room are reasons for another round at the same
instant, even if what they announce is taken up in the same round.
-/

set_option autoImplicit false

namespace BoardBench

/-- Who takes part in a phase. -/
inductive Party where
  | reader (s : Side)
  | collector
deriving Repr, DecidableEq

namespace Party

/-- The party that leads the round after one that this party led. -/
def next : Party → Party
  | .reader .first => .reader .second
  | .reader .second => .collector
  | .collector => .reader .first

/-- The order of the turns in a round that this party leads. -/
def order (p : Party) : List Party :=
  [p, p.next, p.next.next]

end Party

/-- A phase under way in rounds: who leads the next round, which readers are in line for room in the
queue, which were promised room, and whether the collector listens for an event. -/
structure Course (σ : Type) where
  phase : Phase σ
  pace : Pace := {}
  lead : Party := .reader .first
  line : List Side := []
  promised : List Side := []
  listening : Bool := false

namespace Course

variable {σ : Type}

/-- The course after a move that takes some steps. -/
def moved (c : Course σ) (steps : Nat) (p : Phase σ) : Course σ :=
  { c with phase := p, pace := c.pace.spend steps }

/-- After a delivery: the promise is kept, and a collector that listened is woken. -/
def afterDelivery (c : Course σ) (s : Side) : Course σ :=
  { c with
    promised := c.promised.erase s
    pace := if c.listening then c.pace.wake else c.pace
    listening := false }

/-- After a merge: the room is promised to the reader that is longest in line. -/
def afterMerge (c : Course σ) : Course σ :=
  match c.line with
  | s :: rest => { c with line := rest, promised := s :: c.promised, pace := c.pace.wake }
  | [] => c

theorem phase_afterMerge (c : Course σ) : c.afterMerge.phase = c.phase := by
  unfold afterMerge
  split <;> rfl

/-- There is room in the queue for the reader of a side: room that it was promised, or that nobody
was. -/
def hasRoom (capacity : Nat) (c : Course σ) (s : Side) : Bool :=
  c.promised.contains s || c.phase.queue.length + c.promised.length < capacity

def getInLine (c : Course σ) (s : Side) : Course σ :=
  if c.line.contains s then c else { c with line := c.line ++ [s] }

def step (c : Course σ) : Course σ :=
  { c with pace := c.pace.spend 1 }

/-- The course that asks for another round. -/
def wake (c : Course σ) : Course σ :=
  { c with pace := c.pace.wake }

def newRound (c : Course σ) (instant : Nat) : Course σ :=
  { c with phase := c.phase.atInstant instant, pace := {} }

/-- The clock that the course leaves behind. A collector that still listens is woken. -/
def clock (c : Course σ) : Clock :=
  { now := c.phase.now, pace := if c.listening then c.pace.wake else c.pace }

variable [Link σ]

/-- The steps that the read of a side takes when it is due: none, if it need not wait. -/
def readSteps (c : Course σ) (s : Side) : Nat :=
  min 1 (Link.read (c.phase.reader s).link).delayMs

/-- A move that takes some steps, if the allowance and the phase admit it. -/
def make? (b : Bracket) (capacity steps : Nat) (c : Course σ) (m : Phase.Move) :
    Option (Course σ) :=
  if steps ≤ c.pace.allowance then (c.phase.perform? b capacity m).map (c.moved steps) else none

/-- What a party does without waiting, if it can do anything. -/
def act? (b : Bracket) (capacity : Nat) (c : Course σ) : Party → Option (Course σ)
  | .reader s =>
    match (c.phase.reader s).stage with
    | .ready => c.make? b capacity 0 (.start s)
    | .reading since =>
      if since + (Link.read (c.phase.reader s).link).delayMs ≤ c.phase.now then
        c.make? b capacity (c.readSteps s) (.receive s)
      else none
    | .holding _ =>
      if c.hasRoom capacity s then
        (c.make? b capacity 1 (.deliver s)).map (·.afterDelivery s)
      else none
    | _ => none
  | .collector => (c.make? b capacity 1 .merge).map afterMerge

/-- How a party waits that cannot go on. Without allowance it asks for another round. -/
def rest (c : Course σ) : Party → Course σ
  | .reader s =>
    match (c.phase.reader s).stage with
    | .reading _ => if c.pace.allowance < c.readSteps s then c.wake else c
    | .holding _ => if c.pace.allowance = 0 then c.wake else c.getInLine s
    | _ => c
  | .collector =>
    if c.pace.allowance = 0 then c.wake
    else if c.phase.isComplete then c
    else { c with listening := true }

/-! ## Acting uses up work, waiting changes nothing -/

theorem lighter_make {b : Bracket} {capacity steps : Nat} {c d : Course σ} {m : Phase.Move}
    (hm : ∀ q, c.phase.perform? b capacity m = some q → q.Lighter c.phase)
    (h : c.make? b capacity steps m = some d) : d.phase.Lighter c.phase := by
  unfold make? at h
  split at h
  · obtain ⟨q, hq, rfl⟩ := Option.map_eq_some_iff.1 h
    exact hm q hq
  · cases h

theorem lighter_act {b : Bracket} {capacity : Nat} {c d : Course σ} {p : Party}
    (h : c.act? b capacity p = some d) : d.phase.Lighter c.phase := by
  cases p with
  | reader s =>
    simp only [act?] at h
    split at h
    · exact lighter_make (fun _ => Phase.lighter_start) h
    · split at h
      · exact lighter_make (fun _ => Phase.lighter_receive) h
      · cases h
    · split at h
      · obtain ⟨e, he, rfl⟩ := Option.map_eq_some_iff.1 h
        exact lighter_make (d := e) (fun _ => Phase.lighter_deliver) he
      · cases h
    · cases h
  | collector =>
    obtain ⟨e, he, rfl⟩ := Option.map_eq_some_iff.1 h
    exact phase_afterMerge e ▸ lighter_make (fun _ => Phase.lighter_merge) he

theorem phase_rest (c : Course σ) (p : Party) : (c.rest p).phase = c.phase := by
  unfold rest getInLine
  repeat' split
  all_goals rfl

theorem pace_rest {c : Course σ} {p : Party} (h : c.pace = {}) : (c.rest p).pace = {} := by
  have ha : c.pace.allowance = quantum := by rw [h]
  unfold rest
  split
  · split
    · rw [if_neg (by simp only [ha, readSteps, quantum]; omega), h]
    · rw [if_neg (by simp [ha, quantum])]
      unfold getInLine
      split <;> exact h
    · exact h
  · rw [if_neg (by simp [ha, quantum])]
    split <;> exact h

/-- The turn of a party: it acts as long as it can, and then waits. -/
def turn (b : Bracket) (capacity : Nat) (p : Party) (c : Course σ) : Course σ :=
  match _h : c.act? b capacity p with
  | some d => turn b capacity p d
  | none => c.rest p
termination_by (c.phase.unstarted, c.phase.work)
decreasing_by
  rcases lighter_act _h with hu | ⟨hu, hw⟩
  · exact Prod.Lex.left _ _ hu
  · exact hu ▸ Prod.Lex.right _ hw

/-- The turns of some parties, up to a failure. -/
def turns (b : Bracket) (capacity : Nat) (c : Course σ) (ps : List Party) : Course σ :=
  ps.foldl (fun c p => if c.phase.failure?.isSome then c else c.turn b capacity p) c

/-- A round: a turn for every party, up to a failure. -/
def round (b : Bracket) (capacity : Nat) (c : Course σ) : Course σ :=
  { c.turns b capacity c.lead.order with lead := c.lead.next }

/-- Nothing happened, and nobody asked for another round who had not asked before. -/
def Idle (d c : Course σ) : Prop :=
  d.phase = c.phase ∧ (c.pace = {} → d.pace = {})

theorem turn_lighter_or_idle (b : Bracket) (capacity : Nat) (p : Party) (c : Course σ) :
    (c.turn b capacity p).phase.Lighter c.phase ∨ (c.turn b capacity p).Idle c := by
  fun_induction turn b capacity p c with
  | case1 c d h ih =>
    have hd := lighter_act h
    rcases ih with ih | ⟨ih, _⟩
    · exact Or.inl (ih.trans hd)
    · exact Or.inl (ih ▸ hd)
  | case2 c h => exact Or.inr ⟨phase_rest c p, pace_rest⟩

theorem turns_lighter_or_idle (b : Bracket) (capacity : Nat) (ps : List Party) (c : Course σ) :
    (c.turns b capacity ps).phase.Lighter c.phase ∨ (c.turns b capacity ps).Idle c := by
  induction ps generalizing c with
  | nil => exact Or.inr ⟨rfl, id⟩
  | cons p ps ih =>
    have hs : c.turns b capacity (p :: ps) =
        (if c.phase.failure?.isSome then c else c.turn b capacity p).turns b capacity ps := rfl
    rw [hs]
    split
    · exact ih c
    · rcases turn_lighter_or_idle b capacity p c with ht | ⟨hp, ht⟩
      · rcases ih (c.turn b capacity p) with hr | ⟨hr, _⟩
        · exact Or.inl (hr.trans ht)
        · exact Or.inl (hr ▸ ht)
      · rcases ih (c.turn b capacity p) with hr | ⟨hr, hi⟩
        · exact Or.inl (hp ▸ hr)
        · exact Or.inr ⟨hr.trans hp, fun h => hi (ht h)⟩

/-- A round makes a move, or it is idle. -/
theorem round_lighter_or_idle (b : Bracket) (capacity : Nat) (c : Course σ) :
    (c.round b capacity).phase.Lighter c.phase ∨ (c.round b capacity).Idle c :=
  turns_lighter_or_idle b capacity c.lead.order c

end Course

end BoardBench
