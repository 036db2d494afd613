import BoardBench.Clock
import BoardBench.Link.Error

/-!
# Links

A link carries lines to one device and back. Its `read` says when a line will be there and how the
link looks then, so that the bench can run in virtual time: nothing but a read, a pause or a time
limit lets time pass.

A read that yields a line, accepted or rejected, leaves a smaller `backlog`. This is what bounds
every loop over the lines of a link.
-/

set_option autoImplicit false

namespace BoardBench

/-- How a read goes on. It looks at the device after some milliseconds, until when the link stays as
it was. Then it ends with an outcome, which leaves the link in a new state, or it never ends. -/
inductive Reading (σ : Type) where
  | never (delayMs : Nat)
  | after (delayMs : Nat) (outcome : Except LinkError String) (rest : σ)

/-- After how many milliseconds a read looks at the device. -/
def Reading.delayMs {σ : Type} : Reading σ → Nat
  | .never delayMs => delayMs
  | .after delayMs .. => delayMs

/-- The outcome took a line off the link. -/
def tookLine : Except LinkError String → Bool
  | .ok _ => true
  | .error e => e.isRejectedLine

/-- A line-oriented connection to one device. -/
class Link (σ : Type) where
  /-- The port name that messages use. -/
  name : σ → String
  /-- Sends a line. -/
  write : String → σ → Except LinkError Unit × σ
  /-- Receives the next line. -/
  read : σ → Reading σ
  /-- Drops what the device sent so far. -/
  clear : σ → Except LinkError Unit × σ
  /-- A bound on the number of lines that can be read without a further write. -/
  backlog : σ → Nat
  /-- A line that was read does not come again. -/
  backlog_lt : ∀ {s s' : σ} {delayMs : Nat} {outcome : Except LinkError String},
    read s = .after delayMs outcome s' → tookLine outcome = true → backlog s' < backlog s

/-! ## Activities -/

/-- How an activity ends: with a value, with an error, or not before the caller gives up. -/
inductive Ending (ε α : Type) where
  | done (a : α)
  | failed (e : ε)
  | stalled
deriving Repr, DecidableEq

/-- An ended activity on a link: how it ended, and what became of the link and the clock. -/
structure Settled (σ ε α : Type) where
  ending : Ending ε α
  link : σ
  clock : Clock

namespace Link

variable {σ : Type} [Link σ]

/-- Reads one line. A read that need not wait takes no step. -/
def readBy (limit : Limit) (s : σ) (c : Clock) : Settled σ LinkError String :=
  match read s with
  | .never _ => ⟨.stalled, s, c.giveUp limit⟩
  | .after delayMs outcome rest =>
    match if delayMs = 0 then some c else c.pause limit delayMs with
    | none => ⟨.stalled, s, c.giveUp limit⟩
    | some c =>
      match outcome with
      | .ok line => ⟨.done line, rest, c⟩
      | .error e => ⟨.failed e, rest, c⟩

theorem backlog_readBy_done {limit : Limit} {s : σ} {c : Clock} {line : String}
    (h : (readBy limit s c).ending = .done line) :
    backlog (readBy limit s c).link < backlog s := by
  unfold readBy at h ⊢
  split at h
  · cases h
  · rename_i delayMs outcome rest hr
    split at h
    · cases h
    · cases outcome with
      | ok l => exact backlog_lt hr rfl
      | error e => cases h

theorem backlog_readBy_failed {limit : Limit} {s : σ} {c : Clock} {e : LinkError}
    (h : (readBy limit s c).ending = .failed e) (he : e.isRejectedLine = true) :
    backlog (readBy limit s c).link < backlog s := by
  unfold readBy at h ⊢
  split at h
  · cases h
  · rename_i delayMs outcome rest hr
    split at h
    · cases h
    · cases outcome with
      | ok l => cases h
      | error e' =>
        cases h
        exact backlog_lt hr he

end Link

end BoardBench
