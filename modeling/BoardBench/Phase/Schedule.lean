import BoardBench.Phase.Course

/-!
# The schedule of a phase in virtual time

A phase runs round by round. It ends as soon as a reader fails, when both readers are through and
everything is merged, or at the end of a round when its time is up: what is due at that instant
still happens, but only as far as this round gets.

A round makes a move, or it has been asked for before, or fewer reads are upcoming after it. So a
phase ends.
-/

set_option autoImplicit false

namespace BoardBench

/-- How a phase ends. -/
inductive Phase.Close where
  | complete
  | failed (e : BenchError)
  | timeUp
deriving Repr, DecidableEq

namespace Course

variable {σ : Type} [Link σ]

/-- The course at the instant at which it is given up. -/
def expire (c : Course σ) (instant : Nat) : Course σ :=
  if instant ≤ c.phase.now then c.step else (c.newRound instant).step

/-- One for a round that is not fresh: another one may follow it although nothing happens in it. -/
def staleness (c : Course σ) : Nat :=
  if c.pace = {} then 0 else 1

/-- What a run of the course uses up, the most important first. -/
def remaining (c : Course σ) : Nat × Nat × Nat × Nat :=
  (c.phase.unstarted, c.phase.work, c.phase.upcoming, c.staleness)

/-- Less remains to run. -/
def Sooner (d c : Course σ) : Prop :=
  Prod.Lex (· < ·) (Prod.Lex (· < ·) (Prod.Lex (· < ·) (· < ·))) d.remaining c.remaining

theorem sooner_of_lighter {d c : Course σ} (h : d.phase.Lighter c.phase) : Sooner d c := by
  rcases h with hu | ⟨hu, hw⟩
  · exact Prod.Lex.left _ _ hu
  · unfold Sooner remaining
    exact hu ▸ Prod.Lex.right _ (Prod.Lex.left _ _ hw)

/-- A round that is followed by another one at the same instant made a move, or was not fresh. -/
theorem sooner_newRound_of_again {b : Bracket} {capacity : Nat} {c : Course σ}
    (h : (c.round b capacity).pace.again = true) :
    Sooner ((c.round b capacity).newRound (c.round b capacity).phase.now) c := by
  have hp : ((c.round b capacity).newRound (c.round b capacity).phase.now).phase =
      (c.round b capacity).phase := by
    simp [newRound, Phase.atInstant]
  rcases round_lighter_or_idle b capacity c with hl | ⟨hi, ha⟩
  · exact sooner_of_lighter (hp ▸ hl)
  · have hc : c.pace ≠ {} := fun h0 => by simp [ha h0] at h
    unfold Sooner remaining
    rw [hp, hi]
    refine Prod.Lex.right _ (Prod.Lex.right _ (Prod.Lex.right _ ?_))
    simp [staleness, newRound, hc]

/-- Fewer reads are upcoming in a round at the next instant at which one is due. -/
theorem sooner_newRound_of_nextDue {b : Bracket} {capacity t : Nat} {c : Course σ}
    (h : (c.round b capacity).phase.nextDue? = some t) :
    Sooner ((c.round b capacity).newRound t) c := by
  have hu := Phase.upcoming_nextDue_lt h
  rcases round_lighter_or_idle b capacity c with hl | ⟨hi, _⟩
  · exact sooner_of_lighter hl
  · rw [hi] at hu
    unfold Sooner remaining
    simp only [newRound, hi]
    exact Prod.Lex.right _ (Prod.Lex.right _ (Prod.Lex.left _ _ hu))

/-- Runs a phase up to an instant. The collector needs a last step to see that everything is merged,
and a round that had no allowance to begin with is not the last one. -/
def run (b : Bracket) (capacity horizon : Nat) (c : Course σ) : Phase.Close × Course σ :=
  let d := c.round b capacity
  match d.phase.failure? with
  | some e => (.failed e, d)
  | none =>
    if d.phase.isComplete ∧ 0 < d.pace.allowance then (.complete, d.step)
    else if horizon ≤ d.phase.now ∧ 0 < c.pace.allowance then (.timeUp, d.expire horizon)
    else if _h : d.pace.again then run b capacity horizon (d.newRound d.phase.now)
    else
      match _h : d.phase.nextDue? with
      | none => (.timeUp, d.expire horizon)
      | some t =>
        if t ≤ horizon then run b capacity horizon (d.newRound t) else (.timeUp, d.expire horizon)
termination_by c.remaining
decreasing_by
  · exact sooner_newRound_of_again _h
  · exact sooner_newRound_of_nextDue _h

end Course

end BoardBench
