import BoardBench.Phase.Schedule
import Mathlib.Tactic.SplitIfs

/-!
# Bounded runs — the course of a phase as something to compute

A turn goes on until nobody can act, and a run until the phase is closed; both end because work is
used up, which is an argument and not a computation. `turnWithin` and `runWithin` do the same for
at most so many acts and rounds and otherwise answer nothing, so that a phase between two given
links can be run. **Whatever they answer is what the run comes to** (`run_of_runWithin`); that
there is a bound with an answer is not claimed here.

The two are written apart from the functions that they follow, and not as their definitions, because
a bound would show in every statement about a phase. They take their steps from the same functions
(`act?`, `rest`, `expire`), so that a change to what a party does is a change in one place; what is
repeated here is the order of the steps and no more, and `run_of_runWithin` does not go through if
it is not the same order.

Both bounds are generous in use, as too small a bound gives no answer instead of a wrong one.
-/

set_option autoImplicit false

namespace BoardBench

namespace Course

variable {σ : Type} [Link σ]

/-- The turn of a party, of less than `n` acts. -/
def turnWithin (b : Bracket) (capacity : Nat) (p : Party) : Nat → Course σ → Option (Course σ)
  | 0, _ => none
  | n + 1, c =>
    match c.act? b capacity p with
    | some d => turnWithin b capacity p n d
    | none => some (c.rest p)

/-- The turns of some parties, of less than `n` acts each. -/
def turnsWithin (b : Bracket) (capacity n : Nat) : List Party → Course σ → Option (Course σ)
  | [], c => some c
  | p :: ps, c =>
    if c.phase.failure?.isSome then turnsWithin b capacity n ps c
    else (turnWithin b capacity p n c).bind (turnsWithin b capacity n ps)

/-- A round whose turns have less than `n` acts each. -/
def roundWithin (b : Bracket) (capacity n : Nat) (c : Course σ) : Option (Course σ) :=
  (turnsWithin b capacity n c.lead.order c).map fun d => { d with lead := c.lead.next }

/-- A run of at most so many rounds, whose turns have less than `n` acts each. -/
def runWithin (b : Bracket) (capacity horizon n : Nat) :
    Nat → Course σ → Option (Phase.Close × Course σ)
  | 0, _ => none
  | m + 1, c =>
    (roundWithin b capacity n c).bind fun d =>
    match d.phase.failure? with
    | some e => some (.failed e, d)
    | none =>
      if d.phase.isComplete ∧ 0 < d.pace.allowance then some (.complete, d.step)
      else if horizon ≤ d.phase.now ∧ 0 < c.pace.allowance then some (.timeUp, d.expire horizon)
      else if d.pace.again then runWithin b capacity horizon n m (d.newRound d.phase.now)
      else
        match d.phase.nextDue? with
        | none => some (.timeUp, d.expire horizon)
        | some t =>
          if t ≤ horizon then runWithin b capacity horizon n m (d.newRound t)
          else some (.timeUp, d.expire horizon)

variable {b : Bracket} {capacity horizon n : Nat}

theorem turn_of_turnWithin {p : Party} {c d : Course σ}
    (h : turnWithin b capacity p n c = some d) : c.turn b capacity p = d := by
  induction n generalizing c with
  | zero => cases h
  | succ n ih =>
    rw [turn]
    rw [turnWithin] at h
    split at h
    · rename_i c' hc
      rw [hc]
      exact ih h
    · rename_i hc
      rw [hc]
      exact Option.some.inj h

theorem turns_of_turnsWithin {ps : List Party} {c d : Course σ}
    (h : turnsWithin b capacity n ps c = some d) : c.turns b capacity ps = d := by
  induction ps generalizing c with
  | nil => exact Option.some.inj h
  | cons p ps ih =>
    have hs : c.turns b capacity (p :: ps) =
        (if c.phase.failure?.isSome then c else c.turn b capacity p).turns b capacity ps := rfl
    rw [hs]
    rw [turnsWithin] at h
    split at h
    · rw [if_pos ‹_›]
      exact ih h
    · rw [if_neg ‹_›]
      obtain ⟨c', hc, hd⟩ := Option.bind_eq_some_iff.1 h
      rw [turn_of_turnWithin hc]
      exact ih hd

theorem round_of_roundWithin {c d : Course σ} (h : roundWithin b capacity n c = some d) :
    c.round b capacity = d := by
  obtain ⟨c', hc, rfl⟩ := Option.map_eq_some_iff.1 h
  rw [round, turns_of_turnsWithin hc]

/-- **An answer within some bound is the answer.** -/
theorem run_of_runWithin {m : Nat} {c : Course σ} {r : Phase.Close × Course σ}
    (h : runWithin b capacity horizon n m c = some r) : c.run b capacity horizon = r := by
  induction m generalizing c with
  | zero => cases h
  | succ m ih =>
    obtain ⟨d, hd, h⟩ := Option.bind_eq_some_iff.1 h
    rw [run, round_of_roundWithin hd]
    cases hf : d.phase.failure? with
    | some e =>
      simp only [hf] at h ⊢
      exact Option.some.inj h
    | none =>
      simp only [hf] at h ⊢
      split_ifs at h ⊢
      · exact Option.some.inj h
      · exact Option.some.inj h
      · exact ih h
      · cases hn : d.phase.nextDue? with
        | none =>
          simp only [hn] at h ⊢
          exact Option.some.inj h
        | some t =>
          simp only [hn] at h ⊢
          split_ifs at h ⊢
          · exact ih h
          · exact Option.some.inj h

/-- What can be computed of a bounded run is so of the run. -/
theorem run_satisfies (n m : Nat) {c : Course σ} {P : Phase.Close × Course σ → Bool}
    (h : (runWithin b capacity horizon n m c).any P = true) :
    P (c.run b capacity horizon) = true := by
  obtain ⟨r, hr, hp⟩ := (Option.any_eq_true _ _).1 h
  rw [run_of_runWithin hr]
  exact hp

end Course

end BoardBench
