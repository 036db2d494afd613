/-!
# Clocks

Virtual time passes in *rounds*. Whatever happens in a round happens at one instant, and a round
allows a limited number of steps: waits that come to their end, deliveries and merges. It is
followed by another round at the same instant if somebody was woken meanwhile or ran out of
allowance; else time goes on to the next instant at which something is due.

An activity that is alone on the clock notices nothing of the rounds. Those that share it do,
because each round has an order of its own.
-/

set_option autoImplicit false

namespace BoardBench

/-! ## Rounds -/

/-- The steps that a round allows. -/
def quantum : Nat := 128

/-- How far a round has come. -/
structure Pace where
  /-- The steps that are left. -/
  allowance : Nat := quantum
  /-- Another round is to follow at the same instant. -/
  again : Bool := false
deriving Repr, DecidableEq

namespace Pace

def spend (steps : Nat) (p : Pace) : Pace :=
  { p with allowance := p.allowance - steps }

/-- Asks for another round at the same instant. -/
def wake (p : Pace) : Pace :=
  { p with again := true }

end Pace

/-! ## Limits -/

/-- The instant at which the caller gives up, if there is one. -/
abbrev Limit := Option Nat

namespace Limit

/-- Something may still happen at this instant. -/
def allows : Limit → Nat → Bool
  | none, _ => true
  | some limit, instant => instant ≤ limit

/-- Another round may follow one at this instant. -/
def isAhead : Limit → Nat → Bool
  | none, _ => true
  | some limit, instant => instant < limit

/-- The limit or an instant, whichever comes first. -/
def earliest (limit : Limit) (instant : Nat) : Nat :=
  min (limit.getD instant) instant

end Limit

/-! ## Clocks -/

/-- The time, and how far its present round has come. -/
structure Clock where
  now : Nat := 0
  pace : Pace := {}
deriving Repr, DecidableEq

namespace Clock

def newRound (instant : Nat) : Clock :=
  { now := instant }

def step (c : Clock) : Clock :=
  { c with pace := c.pace.spend 1 }

/-- The clock behind a pause of somebody who is alone on it, unless the limit comes first. A pause
of no length goes through in the present round as long as the allowance lasts. -/
def pause (limit : Limit) (ms : Nat) (c : Clock) : Option Clock :=
  if ms = 0 ∧ 0 < c.pace.allowance then some c.step
  else if limit.isAhead c.now ∧ limit.allows (c.now + ms) then some (newRound (c.now + ms)).step
  else none

/-- The clock when an instant has come at which somebody gives up. -/
def expire (instant : Nat) (c : Clock) : Clock :=
  if instant ≤ c.now then c.step else (newRound instant).step

/-- The clock when an activity that does not go on is given up. -/
def giveUp (limit : Limit) (c : Clock) : Clock :=
  match limit with
  | none => c
  | some instant => c.expire instant

theorem now_of_pause {limit : Limit} {ms : Nat} {c c' : Clock} (h : c.pause limit ms = some c') :
    c'.now = c.now + ms := by
  unfold pause at h
  split at h
  · rename_i hz
    cases h
    simp [step, hz.1]
  · split at h
    · cases h
      rfl
    · cases h

end Clock

end BoardBench
