import BoardBench.Phase.Schedule
import Mathlib.Logic.Relation

/-!
# Runs — from one act of one party to the whole course of a phase

The course of a phase nests three loops: a party acts as long as it can, a round gives every party
a turn, and a run goes from round to round. A fact about phases is about none of these loops, so
each is taken apart once, here:

* an act is a move of the phase (`perform_of_act`), and waiting changes nothing in it, so that what
  every act and every wait keeps, a round keeps (`round_keeps`);
* a run ends with a last round, and `LastRound` says in which ways (`run_lastRound`). What holds at
  the start of every round before it holds at the start of the last one.

`reached_run` is the first use: **whatever a run comes to, some order of moves comes to as well**.

`Acts` is the relation behind the function `Course.act?`, in both directions (`acts_of_act`,
`act_of_acts`). The function decides by a match inside a match whether a move is made and paid for,
and a proof that opens it has to go through all of that again. By the relation an invariant has one
case for each thing that a party can do, with all that is known in that case as its hypotheses.

`LastRound` speaks of the course *behind* the last round only, since what a run does then depends on
nothing else. So what is told of the end of a phase needs no induction of its own. The moves of a
phase include waiting (`Phase.Move.wait`), because the time goes on between two rounds and when a
phase is given up, and neither of these is the act of a party.
-/

set_option autoImplicit false

namespace BoardBench

variable {σ : Type} [Link σ]

namespace Course

variable {b : Bracket} {capacity horizon : Nat}

/-! ## Acts -/

/-- The ways to act: a reader starts, receives what is due or delivers where there is room, and the
collector merges. -/
inductive Acts (b : Bracket) (capacity : Nat) (c : Course σ) : Party → Course σ → Prop
  | start {s : Side} (hs : (c.phase.reader s).stage = .ready) :
      Acts b capacity c (.reader s)
        (c.moved 0 (c.phase.setReader ((c.phase.reader s).start b c.phase.now) s))
  | receive {s : Side} {since : Nat} (hs : (c.phase.reader s).stage = .reading since)
      (hdue : since + (Link.read (c.phase.reader s).link).delayMs ≤ c.phase.now)
      (ha : c.readSteps s ≤ c.pace.allowance) :
      Acts b capacity c (.reader s)
        (c.moved (c.readSteps s)
          (c.phase.setReader ((c.phase.reader s).receive b c.phase.now) s))
  | deliver {s : Side} {e : Event} (hs : (c.phase.reader s).stage = .holding e)
      (hroom : c.hasRoom capacity s = true) (hfree : c.phase.queue.length < capacity)
      (ha : 0 < c.pace.allowance) :
      Acts b capacity c (.reader s)
        ((c.moved 1 ((c.phase.setReader
          ⟨(c.phase.reader s).link, Reader.afterDelivery b c.phase.now e⟩ s).enqueue
            (s, e))).afterDelivery s)
  | merge {x : Side × Event} {rest : List (Side × Event)} (hq : c.phase.queue = x :: rest)
      (ha : 0 < c.pace.allowance) :
      Acts b capacity c .collector (c.moved 1 (c.phase.mergeFront x rest)).afterMerge

/-- A move that is made is paid for from the allowance. -/
theorem performs_of_make {c d : Course σ} {steps : Nat} {m : Phase.Move}
    (h : c.make? b capacity steps m = some d) :
    steps ≤ c.pace.allowance ∧
      ∃ q, c.phase.perform? b capacity m = some q ∧ d = c.moved steps q := by
  unfold make? at h
  split at h
  · obtain ⟨q, hq, rfl⟩ := Option.map_eq_some_iff.1 h
    exact ⟨‹_›, q, hq, rfl⟩
  · cases h

theorem acts_of_act {c d : Course σ} {p : Party} (h : c.act? b capacity p = some d) :
    Acts b capacity c p d := by
  cases p with
  | reader s =>
    simp only [act?] at h
    split at h
    · obtain ⟨-, q, hmove, rfl⟩ := performs_of_make h
      cases Phase.moves_of_perform hmove with
      | start hs => exact .start hs
    · rename_i since hs
      split at h
      · obtain ⟨ha, q, hmove, rfl⟩ := performs_of_make h
        cases Phase.moves_of_perform hmove with
        | receive _ => exact .receive hs ‹_› ha
      · cases h
    · split at h
      · obtain ⟨d', hd, rfl⟩ := Option.map_eq_some_iff.1 h
        obtain ⟨ha, q, hmove, rfl⟩ := performs_of_make hd
        cases Phase.moves_of_perform hmove with
        | deliver hs hfree => exact .deliver hs ‹_› hfree ha
      · cases h
    · cases h
  | collector =>
    obtain ⟨d', hd, rfl⟩ := Option.map_eq_some_iff.1 h
    obtain ⟨ha, q, hmove, rfl⟩ := performs_of_make hd
    cases Phase.moves_of_perform hmove with
    | merge hq => exact .merge hq ha

theorem act_of_acts {c d : Course σ} {p : Party} (h : Acts b capacity c p d) :
    c.act? b capacity p = some d := by
  cases h with
  | start hs => simp [act?, make?, (Phase.Moves.start hs).perform, hs]
  | receive hs hdue ha => simp [act?, make?, (Phase.Moves.receive hs).perform, hs, hdue, ha]
  | deliver hs hroom hfree ha =>
    simp [act?, make?, (Phase.Moves.deliver hs hfree).perform, hs, hroom, Nat.succ_le_of_lt ha]
  | merge hq ha => simp [act?, make?, (Phase.Moves.merge hq).perform, Nat.succ_le_of_lt ha]

theorem Acts.perform {c d : Course σ} {p : Party} (h : Acts b capacity c p d) :
    ∃ m, c.phase.perform? b capacity m = some d.phase := by
  cases h with
  | start hs => exact ⟨_, (Phase.Moves.start hs).perform⟩
  | receive hs _ _ => exact ⟨_, (Phase.Moves.receive hs).perform⟩
  | deliver hs _ hfree _ => exact ⟨_, (Phase.Moves.deliver hs hfree).perform⟩
  | merge hq _ =>
    rw [phase_afterMerge]
    exact ⟨_, (Phase.Moves.merge hq).perform⟩

/-- Nobody's act takes time. -/
theorem Acts.now_eq {c d : Course σ} {p : Party} (h : Acts b capacity c p d) :
    d.phase.now = c.phase.now := by
  cases h with
  | start _ => exact Phase.now_setReader _ _ _
  | receive _ _ _ => exact Phase.now_setReader _ _ _
  | deliver _ _ _ _ => exact Phase.now_setReader _ _ _
  | merge _ _ =>
    rw [phase_afterMerge]
    rfl

/-! ## Turns and rounds -/

/-- A turn is a number of acts of one party, up to where it cannot act any more, and then a wait. -/
theorem turn_ends {P : Course σ → Prop} {p : Party}
    (hact : ∀ {c d : Course σ}, P c → Acts b capacity c p d → P d) {c : Course σ} (h : P c) :
    ∃ d, P d ∧ d.act? b capacity p = none ∧ c.turn b capacity p = d.rest p := by
  fun_induction turn b capacity p c with
  | case1 c d hd ih => exact ih (hact h (acts_of_act hd))
  | case2 c hd => exact ⟨c, h, hd, rfl⟩

theorem turns_cons (c : Course σ) (p : Party) (ps : List Party) :
    c.turns b capacity (p :: ps) =
      (if c.phase.failure?.isSome then c else c.turn b capacity p).turns b capacity ps := rfl

theorem turns_of_failed {c : Course σ} (h : c.phase.failure?.isSome = true) (ps : List Party) :
    c.turns b capacity ps = c := by
  induction ps with
  | nil => rfl
  | cons p ps ih => rw [turns_cons, if_pos h, ih]

theorem turns_keep {P : Course σ → Prop}
    (hact : ∀ {c d : Course σ} {p : Party}, P c → Acts b capacity c p d → P d)
    (hrest : ∀ {c : Course σ} {p : Party}, P c → c.act? b capacity p = none → P (c.rest p))
    (ps : List Party) {c : Course σ} (h : P c) : P (c.turns b capacity ps) := by
  induction ps generalizing c with
  | nil => exact h
  | cons p ps ih =>
    rw [turns_cons]
    split
    · exact ih h
    · obtain ⟨d, hd, hnone, hturn⟩ := turn_ends (p := p) hact h
      rw [hturn]
      exact ih (hrest hd hnone)

/-- What every act and every wait keeps, and what does not depend on who leads, a round keeps. -/
theorem round_keeps {P : Course σ → Prop}
    (hact : ∀ {c d : Course σ} {p : Party}, P c → Acts b capacity c p d → P d)
    (hrest : ∀ {c : Course σ} {p : Party}, P c → c.act? b capacity p = none → P (c.rest p))
    (hlead : ∀ {c : Course σ} {p : Party}, P c → P { c with lead := p }) {c : Course σ} (h : P c) :
    P (c.round b capacity) :=
  hlead (turns_keep hact hrest c.lead.order h)

/-- A round takes no time. -/
theorem now_round (c : Course σ) : (c.round b capacity).phase.now = c.phase.now := by
  refine round_keeps (P := fun d : Course σ => d.phase.now = c.phase.now) ?_ ?_ ?_ rfl
  · intro d d' p hd ha
    rw [ha.now_eq, hd]
  · intro d p hd _
    rw [phase_rest]
    exact hd
  · intro d p hd
    exact hd

/-! ## Runs -/

/-- The ways in which a run ends with a round that leads to `d`: a reader failed, all is done, the
time was up, or nothing is left to wait for before it is. -/
inductive LastRound (horizon : Nat) (d : Course σ) : Phase.Close → Course σ → Prop
  | failed {e : BenchError} (hf : d.phase.failure? = some e) : LastRound horizon d (.failed e) d
  | complete (hf : d.phase.failure? = none) (hc : d.phase.isComplete = true) :
      LastRound horizon d .complete d.step
  | late (hf : d.phase.failure? = none) (hl : horizon ≤ d.phase.now) :
      LastRound horizon d .timeUp (d.expire horizon)
  | still (hf : d.phase.failure? = none)
      (hc : ¬(d.phase.isComplete = true ∧ 0 < d.pace.allowance)) (ha : d.pace.again = false)
      (hd : ∀ t, d.phase.nextDue? = some t → horizon < t) :
      LastRound horizon d .timeUp (d.expire horizon)

theorem LastRound.isComplete {d c : Course σ} (h : LastRound horizon d .complete c) :
    c.phase.isComplete = true := by
  cases h with
  | complete _ hc => exact hc

/-- What the start of a run satisfies, and what passes from the start of a round to the start of the
next, the start of the last round satisfies. -/
theorem run_lastRound (horizon : Nat) {P : Course σ → Prop}
    (hagain : ∀ {c : Course σ}, P c → (c.round b capacity).phase.failure? = none →
      P ((c.round b capacity).newRound (c.round b capacity).phase.now))
    (hnext : ∀ {c : Course σ} {t : Nat}, P c → (c.round b capacity).phase.failure? = none →
      (c.round b capacity).pace.again = false →
      (c.round b capacity).phase.nextDue? = some t → t ≤ horizon →
      P ((c.round b capacity).newRound t)) {c : Course σ} (h : P c) :
    ∃ c', P c' ∧ LastRound horizon (c'.round b capacity) (c.run b capacity horizon).1
      (c.run b capacity horizon).2 := by
  fun_induction run b capacity horizon c with
  | case1 c d e hf => exact ⟨c, h, .failed hf⟩
  | case2 c d hf hc => exact ⟨c, h, .complete hf hc.1⟩
  | case3 c d hf hc hl => exact ⟨c, h, .late hf hl.1⟩
  | case4 c d hf hc hl ha ih => exact ih (hagain h hf)
  | case5 c d hf hc hl ha hd =>
    refine ⟨c, h, .still hf hc (by simpa using ha) fun t ht => ?_⟩
    rw [hd] at ht
    cases ht
  | case6 c d hf hc hl ha t hd ht ih => exact ih (hnext h hf (by simpa using ha) hd ht)
  | case7 c d hf hc hl ha t hd ht =>
    refine ⟨c, h, .still hf hc (by simpa using ha) fun u hu => ?_⟩
    rw [hd] at hu
    cases hu
    exact Nat.lt_of_not_le ht

end Course

/-! ## Every run is some order of moves -/

namespace Phase

/-- Some order of moves leads from one phase to another. -/
abbrev Reaches (b : Bracket) (capacity : Nat) : Phase σ → Phase σ → Prop :=
  Relation.ReflTransGen (Step b capacity)

variable {b : Bracket} {capacity horizon : Nat} {p₀ : Phase σ}

theorem Reaches.atInstant {p : Phase σ} (h : Reaches b capacity p₀ p) (t : Nat) :
    Reaches b capacity p₀ (p.atInstant t) :=
  h.tail ⟨.wait (max p.now t), if_pos (Nat.le_max_left p.now t)⟩

theorem reached_round {c : Course σ} (h : Reaches b capacity p₀ c.phase) :
    Reaches b capacity p₀ (c.round b capacity).phase := by
  refine Course.round_keeps (P := fun c : Course σ => Reaches b capacity p₀ c.phase) ?_ ?_ ?_ h
  · intro c d p hc hd
    exact hc.tail hd.perform
  · intro c p hc _
    rw [Course.phase_rest]
    exact hc
  · intro c p hc
    exact hc

theorem reached_run {c : Course σ} (h : Reaches b capacity p₀ c.phase) :
    Reaches b capacity p₀ (c.run b capacity horizon).2.phase := by
  obtain ⟨c', hc', hlast⟩ := Course.run_lastRound (b := b) horizon
    (P := fun c : Course σ => Reaches b capacity p₀ c.phase)
    (fun h _ => (reached_round h).atInstant _) (fun h _ _ _ _ => (reached_round h).atInstant _) h
  have hr := reached_round hc'
  have hexpire : ∀ t, Reaches b capacity p₀ ((c'.round b capacity).expire t).phase := by
    intro t
    unfold Course.expire
    split
    · exact hr
    · exact hr.atInstant t
  -- only the ways to end matter from here, and not how the run got there
  generalize (c.run b capacity horizon).1 = close at hlast
  generalize (c.run b capacity horizon).2 = d at hlast ⊢
  cases hlast with
  | failed _ => exact hr
  | complete _ _ => exact hr
  | late _ _ => exact hexpire horizon
  | still _ _ _ _ => exact hexpire horizon

end Phase

end BoardBench
