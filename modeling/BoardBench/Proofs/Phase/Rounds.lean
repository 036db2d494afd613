import BoardBench.Proofs.Phase.Runs
import Mathlib.Data.List.Nodup

/-!
# Rounds — nobody is left behind when an instant is over

A round that is not followed by another one at the same instant leaves nothing to be done at that
instant: the queue is drained, no reader is still to start or holds an event, and every read that
is going on is due later (`quiet_round`). The proof is by what stands between a party and its next
act: each party is `Blocked` right after its own turn, and it stays so, or somebody asks for
another round (`Settled`).

Room in the queue is where this could go wrong, as a reader that waits for room depends on promises
made to others. `Lawful` says what the promises keep to, and **no reader waits for room in a drained
queue** (`Lawful.not_holds`).

It is not enough to say that each party is blocked after its turn. The acts of the others may
unblock it, and then it has had its turn already. `Settled` is therefore a disjunction, and one half
of it, that another round was asked for, is never taken back within a round (`Acts.again`). So the
disjunction is kept by every act and every wait, whoever makes it (`Settled.acts`, `Settled.rest`).

Nor can it be said that whoever holds an event gets room. A reader in line does not, for as long as
the room is promised to others. What helps is that promises are made to those in line only, and that
they exhaust the capacity while somebody is left there: if the queue is empty, a promise is out, and
whoever has it is not in line.
-/

set_option autoImplicit false

namespace BoardBench

variable {σ : Type}

theorem Reader.start_ne_finished [Link σ] (b : Bracket) (now : Nat) (r : Reader σ) :
    (r.start b now).stage ≠ .finished := by
  unfold Reader.start
  split <;> simp

theorem Reader.receive_ne_finished [Link σ] (b : Bracket) (now : Nat) (r : Reader σ) :
    (r.receive b now).stage ≠ .finished := by
  unfold Reader.receive
  split
  · simp
  · simp
  · split <;> simp

/-- A reader that has nothing to do at an instant: it is through, or its read goes on. -/
def Reader.Waits [Link σ] (now : Nat) (r : Reader σ) : Prop :=
  match r.stage with
  | .reading since => now < since + (Link.read r.link).delayMs
  | .hanging => True
  | .finished => True
  | _ => False

theorem Phase.not_failed_of_failure? {p : Phase σ} (h : p.failure? = none) {s : Side}
    {e : BenchError} : (p.reader s).stage ≠ .failed e := by
  intro hs
  unfold Phase.failure? at h
  split at h
  · cases h
  · cases h
  · rename_i hfirst hsecond
    cases s
    · exact hfirst e hs
    · exact hsecond e hs

theorem Party.mem_order (p q : Party) : q ∈ p.order := by
  rcases p with (_ | _) | _ <;> rcases q with (_ | _) | _ <;> decide

namespace Course

variable {b : Bracket} {capacity : Nat} {c d : Course σ} {p q : Party}

theorem not_isComplete {s : Side} (h : (c.phase.reader s).stage ≠ .finished) :
    c.phase.isComplete = false := by
  cases hc : c.phase.isComplete with
  | false => rfl
  | true =>
    simp only [Phase.isComplete, Bool.and_eq_true, beq_iff_eq] at hc
    cases s
    · exact absurd hc.1.1 h
    · exact absurd hc.1.2 h

/-! ## Room in the queue -/

/-- The reader of a side has an event in hand. -/
def Holds (c : Course σ) (s : Side) : Prop :=
  ∃ e, (c.phase.reader s).stage = .holding e

/-- What the line and the promises keep to. Whoever is in line or was promised room has an event in
hand, and is so once. Queued events and promises do not exceed the capacity, and they exhaust it
while somebody is in line. A collector that listens has drained the queue, and it does not listen in
vain. -/
structure Lawful (capacity : Nat) (c : Course σ) : Prop where
  holds : ∀ s ∈ c.line ++ c.promised, c.Holds s
  nodup : (c.line ++ c.promised).Nodup
  bounded : c.phase.queue.length + c.promised.length ≤ capacity
  full : c.line ≠ [] → c.phase.queue.length + c.promised.length = capacity
  drained : c.listening = true → c.phase.queue = []
  expects : c.listening = true → c.phase.isComplete = false

theorem Lawful.hasRoom_of_mem (h : c.Lawful capacity) {s : Side} (hs : s ∈ c.line) :
    c.hasRoom capacity s = false := by
  have hfull := h.full (List.ne_nil_of_mem hs)
  have hnot : s ∉ c.promised := fun hp => (List.nodup_append.1 h.nodup).2.2 s hs s hp rfl
  simp [hasRoom, hnot, hfull]

/-- With the queue drained, nobody in line holds up anybody: there is always a promise that can be
kept. -/
theorem Lawful.not_holds (h : c.Lawful capacity) (hpos : 0 < capacity) (hq : c.phase.queue = [])
    (hline : ∀ s, c.Holds s → s ∈ c.line) (s : Side) : ¬c.Holds s := by
  intro hs
  have hfull := h.full (List.ne_nil_of_mem (hline s hs))
  rw [hq, List.length_nil, Nat.zero_add] at hfull
  -- an empty queue that is exhausted is so by promises, and one of them can be kept
  obtain ⟨t, ht⟩ := List.exists_mem_of_length_pos (hfull ▸ hpos)
  have hl := hline t (h.holds t (List.mem_append_right _ ht))
  exact (List.nodup_append.1 h.nodup).2.2 t hl t ht rfl

/-- A reader that holds nothing can change without anybody's room being touched. -/
theorem Lawful.setReader (h : c.Lawful capacity) {s : Side} (hs : ¬c.Holds s) {r : Reader σ}
    (hr : r.stage ≠ .finished) (steps : Nat) :
    (c.moved steps (c.phase.setReader r s)).Lawful capacity where
  holds t ht := by
    obtain ⟨e, he⟩ := h.holds t ht
    have hts : t ≠ s := fun hts => hs (hts ▸ ⟨e, he⟩)
    exact ⟨e, by rw [← he]; exact congrArg Reader.stage (c.phase.reader_setReader_of_ne r hts)⟩
  nodup := h.nodup
  bounded := by simpa [moved] using h.bounded
  full := by simpa [moved] using h.full
  drained := by simpa [moved] using h.drained
  expects _ := not_isComplete (s := s) (by simpa [moved] using hr)

theorem Lawful.deliver (h : c.Lawful capacity) {s : Side} {e : Event}
    (hs : (c.phase.reader s).stage = .holding e) (hroom : c.hasRoom capacity s = true)
    (hfree : c.phase.queue.length < capacity) (r : Reader σ) :
    ((c.moved 1 ((c.phase.setReader r s).enqueue (s, e))).afterDelivery s).Lawful capacity := by
  -- a reader that has room is not in line, as whoever is in line has none
  have hline : s ∉ c.line := fun hl => by simp [h.hasRoom_of_mem hl] at hroom
  have hnodup := List.nodup_append.1 h.nodup
  refine ⟨?_, ?_, ?_, ?_, by simp [afterDelivery], by simp [afterDelivery]⟩
  · intro t ht
    have hts : t ≠ s := by
      rintro rfl
      rcases List.mem_append.1 ht with hl | hp
      · exact hline hl
      · exact hnodup.2.1.not_mem_erase hp
    obtain ⟨x, hx⟩ : c.Holds t := by
      rcases List.mem_append.1 ht with hl | hp
      · exact h.holds t (List.mem_append_left _ hl)
      · exact h.holds t (List.mem_append_right _ (List.mem_of_mem_erase hp))
    refine ⟨x, ?_⟩
    simp only [afterDelivery, moved, Phase.reader_enqueue]
    rw [c.phase.reader_setReader_of_ne r hts, hx]
  · refine List.nodup_append.2 ⟨hnodup.1, hnodup.2.1.erase s, ?_⟩
    intro x hx y hy
    exact hnodup.2.2 x hx y (List.mem_of_mem_erase hy)
  · -- the event takes the room of a promise, or room that nobody was promised
    have hb := h.bounded
    simp only [afterDelivery, moved, Phase.queue_enqueue, Phase.queue_setReader,
      List.length_append, List.length_singleton]
    by_cases hp : s ∈ c.promised
    · have := List.length_erase_of_mem hp
      have := List.length_pos_of_mem hp
      omega
    · rw [List.erase_of_not_mem hp]
      simp only [hasRoom, List.contains_eq_mem, hp, decide_false, Bool.false_or,
        decide_eq_true_eq] at hroom
      omega
  · -- while somebody is in line all room is promised, and so this event had a promise
    intro hne
    have hf := h.full hne
    simp only [afterDelivery, moved, Phase.queue_enqueue, Phase.queue_setReader,
      List.length_append, List.length_singleton]
    have hp : s ∈ c.promised := by
      by_contra hp
      simp [hasRoom, hp, hf] at hroom
    have := List.length_erase_of_mem hp
    have := List.length_pos_of_mem hp
    omega

theorem Lawful.merge (h : c.Lawful capacity) {x : Side × Event} {rest : List (Side × Event)}
    (hq : c.phase.queue = x :: rest) :
    (c.moved 1 (c.phase.mergeFront x rest)).afterMerge.Lawful capacity := by
  have hb := h.bounded
  have hf := h.full
  -- there was an event to merge, so the collector is not listening
  have hlisten : c.listening ≠ true := fun hl => by simp [h.drained hl] at hq
  rw [hq, List.length_cons] at hb hf
  unfold afterMerge
  split
  · -- the room that the merge leaves goes to the head of the line
    rename_i s line hl
    have hl' : c.line = s :: line := hl
    have hperm : (line ++ s :: c.promised).Perm (c.line ++ c.promised) := by
      rw [hl']
      exact List.perm_middle
    refine ⟨?_, hperm.nodup_iff.2 h.nodup, ?_, ?_, fun hl => absurd hl hlisten,
      fun hl => absurd hl hlisten⟩
    · intro t ht
      obtain ⟨e, he⟩ := h.holds t (hperm.mem_iff.1 ht)
      exact ⟨e, by simpa [moved] using he⟩
    · simp only [moved, Phase.queue_mergeFront, List.length_cons]
      omega
    · intro _
      have := hf (by simp [hl'])
      simp only [moved, Phase.queue_mergeFront, List.length_cons]
      omega
  · -- nobody is in line, and the room stays free
    rename_i hl
    have hl' : c.line = [] := hl
    refine ⟨?_, h.nodup, ?_, fun hne => absurd hl' hne, fun hl => absurd hl hlisten,
      fun hl => absurd hl hlisten⟩
    · intro t ht
      obtain ⟨e, he⟩ := h.holds t ht
      exact ⟨e, by simpa [moved] using he⟩
    · simp only [moved, Phase.queue_mergeFront]
      omega

/-- A reader that has no room gets in line, and that the line is not empty means no more than that
the queue is full. -/
theorem Lawful.getInLine (h : c.Lawful capacity) {s : Side} {e : Event}
    (hs : (c.phase.reader s).stage = .holding e) (hroom : c.hasRoom capacity s = false) :
    (c.getInLine s).Lawful capacity := by
  unfold Course.getInLine
  split
  · exact h
  · rename_i hnot
    simp only [hasRoom, List.contains_eq_mem, Bool.or_eq_false_iff, decide_eq_false_iff_not,
      Nat.not_lt] at hroom
    have hperm : ((c.line ++ [s]) ++ c.promised).Perm (s :: (c.line ++ c.promised)) := by
      rw [List.append_assoc]
      exact List.perm_middle
    refine ⟨?_, ?_, h.bounded, fun _ => Nat.le_antisymm h.bounded hroom.2, h.drained, h.expects⟩
    · intro t ht
      rcases List.mem_cons.1 (hperm.mem_iff.1 ht) with rfl | ht
      · exact ⟨e, hs⟩
      · exact h.holds t ht
    · refine hperm.nodup_iff.2 (List.nodup_cons.2 ⟨?_, h.nodup⟩)
      rw [List.mem_append]
      rintro (hl | hp)
      · exact hnot (by simpa using hl)
      · exact hroom.1 hp

variable [Link σ]

theorem Lawful.acts (h : c.Lawful capacity) (ha : Acts b capacity c p d) : d.Lawful capacity := by
  cases ha with
  | start hs =>
    exact h.setReader (fun ⟨e, he⟩ => by simp [hs] at he) (Reader.start_ne_finished _ _ _) 0
  | receive hs _ _ =>
    exact h.setReader (fun ⟨e, he⟩ => by simp [hs] at he) (Reader.receive_ne_finished _ _ _) _
  | deliver hs hroom hfree _ => exact h.deliver hs hroom hfree _
  | merge hq _ => exact h.merge hq

/-- A reader that holds an event, has allowance and cannot act has no room. -/
theorem Lawful.hasRoom_of_act (h : c.Lawful capacity) {s : Side} {e : Event}
    (hs : (c.phase.reader s).stage = .holding e) (ha : c.pace.allowance ≠ 0)
    (hnone : c.act? b capacity (.reader s) = none) : c.hasRoom capacity s = false := by
  by_contra hroom
  rw [Bool.not_eq_false] at hroom
  have hfree : c.phase.queue.length < capacity := by
    have hb := h.bounded
    simp only [hasRoom, List.contains_eq_mem, Bool.or_eq_true, decide_eq_true_eq] at hroom
    rcases hroom with hp | hr
    · have := List.length_pos_of_mem hp
      omega
    · omega
  rw [act_of_acts (.deliver hs hroom hfree (Nat.pos_of_ne_zero ha))] at hnone
  cases hnone

/-- A collector that has allowance and cannot act has drained the queue. -/
theorem queue_of_act (ha : c.pace.allowance ≠ 0) (hnone : c.act? b capacity .collector = none) :
    c.phase.queue = [] := by
  cases hq : c.phase.queue with
  | nil => rfl
  | cons x rest =>
    rw [act_of_acts (.merge hq (Nat.pos_of_ne_zero ha))] at hnone
    cases hnone

/-- A party that cannot act waits lawfully: a reader gets in line only if the queue is full. -/
theorem Lawful.rest (h : c.Lawful capacity) (hnone : c.act? b capacity p = none) :
    (c.rest p).Lawful capacity := by
  unfold Course.rest
  split
  · rename_i s
    split
    · split
      · exact ⟨h.holds, h.nodup, h.bounded, h.full, h.drained, h.expects⟩
      · exact h
    · rename_i e hs
      split
      · exact ⟨h.holds, h.nodup, h.bounded, h.full, h.drained, h.expects⟩
      · rename_i ha
        have hroom : c.hasRoom capacity s = false := h.hasRoom_of_act hs ha hnone
        exact h.getInLine hs hroom
    · exact h
  · split
    · exact ⟨h.holds, h.nodup, h.bounded, h.full, h.drained, h.expects⟩
    · split
      · exact h
      · rename_i ha hc
        refine ⟨h.holds, h.nodup, h.bounded, h.full, fun _ => ?_, fun _ => by simpa using hc⟩
        show c.phase.queue = []
        exact queue_of_act ha hnone

omit [Link σ] in
theorem Lawful.newRound (h : c.Lawful capacity) (t : Nat) : (c.newRound t).Lawful capacity :=
  ⟨fun s hs => h.holds s hs, h.nodup, h.bounded, h.full, h.drained, h.expects⟩

/-! ## What stands between a party and its next act -/

/-- A party that cannot act at this instant, whatever allowance it has: a read is due later, an
event waits in line for room, and the collector has drained the queue and listens, or sees that all
is done. -/
def Blocked (c : Course σ) : Party → Prop
  | .reader s =>
    match (c.phase.reader s).stage with
    | .ready => False
    | .reading since => c.phase.now < since + (Link.read (c.phase.reader s).link).delayMs
    | .holding _ => s ∈ c.line
    | _ => True
  | .collector =>
    c.phase.queue = [] ∧ (c.phase.isComplete = false → c.listening = true) ∧
      (c.phase.isComplete = true → 0 < c.pace.allowance)

/-- A party is blocked, or there is another round in which it is looked after. -/
def Settled (c : Course σ) (p : Party) : Prop :=
  c.pace.again = true ∨ c.Blocked p

theorem Acts.again (ha : Acts b capacity c p d) (h : c.pace.again = true) :
    d.pace.again = true := by
  cases ha with
  | start _ => exact h
  | receive _ _ _ => exact h
  | deliver _ _ _ _ =>
    unfold afterDelivery
    dsimp only
    split
    · rfl
    · exact h
  | merge _ _ =>
    unfold afterMerge
    split
    · rfl
    · exact h

theorem Blocked.of_reader_eq {s : Side} (h : c.Blocked (.reader s))
    (hr : d.phase.reader s = c.phase.reader s) (hn : d.phase.now = c.phase.now)
    (hl : s ∈ c.line → s ∈ d.line) : d.Blocked (.reader s) := by
  simp only [Blocked] at h ⊢
  rw [hr, hn]
  split at h
  · exact h
  · exact h
  · exact hl h
  · trivial

/-- A reader that is not through changes: whoever else is blocked stays so. The collector listens
then, since the phase is not complete. -/
theorem Blocked.setReader {s : Side} (h : c.Blocked q) (hs : (c.phase.reader s).stage ≠ .finished)
    (hne : q ≠ .reader s) {steps : Nat} {r : Reader σ}
    (hd : (c.moved steps (c.phase.setReader r s)).Lawful capacity) :
    (c.moved steps (c.phase.setReader r s)).Blocked q := by
  cases q with
  | reader t =>
    refine h.of_reader_eq ?_ (by simp [moved]) id
    exact c.phase.reader_setReader_of_ne _ (fun hts => hne (hts ▸ rfl))
  | collector =>
    have hl : c.listening = true := h.2.1 (not_isComplete hs)
    refine ⟨by simpa [moved] using h.1, fun _ => hl, fun hc => ?_⟩
    rw [hd.expects hl] at hc
    cases hc

/-- What one party does leaves the others blocked, or wakes them. -/
theorem Settled.acts (h : c.Settled q) (hd : d.Lawful capacity) (ha : Acts b capacity c p d)
    (hne : q ≠ p) : d.Settled q := by
  rcases h with h | h
  · exact Or.inl (ha.again h)
  cases ha with
  | start hs => exact Or.inr (h.setReader (by simp [hs]) hne hd)
  | receive hs _ _ => exact Or.inr (h.setReader (by simp [hs]) hne hd)
  | @deliver s e hs _ _ _ =>
    cases q with
    | reader t =>
      refine Or.inr (h.of_reader_eq ?_ (by simp [moved, afterDelivery]) id)
      simp only [afterDelivery, moved, Phase.reader_enqueue]
      exact c.phase.reader_setReader_of_ne _ (fun hts => hne (hts ▸ rfl))
    | collector =>
      -- a collector that waited for an event is woken by this one
      have hl : c.listening = true := h.2.1 (not_isComplete (s := s) (by simp [hs]))
      left
      simp [afterDelivery, moved, hl, Pace.wake]
  | @merge x rest hq _ =>
    cases q with
    | reader t =>
      unfold afterMerge
      split
      · exact Or.inl rfl
      · exact Or.inr (h.of_reader_eq (by simp [moved]) (by simp [moved]) id)
    | collector => exact absurd rfl hne

/-- The wait of a party leaves everybody blocked, or wakes them. -/
theorem Settled.rest (h : c.Settled q) (p : Party) : (c.rest p).Settled q := by
  have hwake : c.wake.Settled q := Or.inl rfl
  have hline : ∀ s, (c.getInLine s).Settled q := by
    intro s
    unfold Course.getInLine
    split
    · exact h
    · rcases h with h | h
      · exact Or.inl h
      · cases q with
        | reader t => exact Or.inr (h.of_reader_eq rfl rfl (List.mem_append_left _))
        | collector => exact Or.inr h
  -- a wait that wakes everybody is settled at once, and any other leaves the readers as they are
  unfold Course.rest
  split
  · split
    · split
      · exact hwake
      · exact h
    · split
      · exact hwake
      · exact hline _
    · exact h
  · split
    · exact hwake
    · split
      · exact h
      · rcases h with h | h
        · exact Or.inl h
        · cases q with
          | reader t => exact Or.inr (h.of_reader_eq rfl rfl id)
          | collector => exact Or.inr ⟨h.1, fun _ => rfl, h.2.2⟩

/-- A party that cannot act is blocked once it waits, unless it only lacks allowance and asks for
another round. -/
theorem settled_rest (hnone : c.act? b capacity p = none) :
    (c.rest p).Settled p := by
  unfold Course.rest
  split
  · rename_i s
    split
    · rename_i since hs
      split
      · exact Or.inl rfl
      · rename_i ha
        apply Or.inr
        simp only [Blocked, hs]
        -- the read is not overdue, or it would have ended in this turn
        by_contra hdue
        rw [act_of_acts (.receive hs (Nat.not_lt.1 hdue) (Nat.not_lt.1 ha))] at hnone
        cases hnone
    · rename_i e hs
      split
      · exact Or.inl rfl
      · rename_i ha
        apply Or.inr
        unfold Course.getInLine
        split
        · rename_i hl
          simp only [Blocked, hs]
          simpa using hl
        · simp [Blocked, hs]
    · rename_i hreading hholding
      apply Or.inr
      cases hs : (c.phase.reader s).stage with
      | ready =>
        rw [act_of_acts (.start hs)] at hnone
        cases hnone
      | reading since => exact absurd hs (hreading since)
      | holding e => exact absurd hs (hholding e)
      | hanging => simp [Blocked, hs]
      | finished => simp [Blocked, hs]
      | failed e => simp [Blocked, hs]
  · split
    · exact Or.inl rfl
    · rename_i ha
      have hq := queue_of_act ha hnone
      split
      · rename_i hc
        refine Or.inr ⟨hq, fun hn => ?_, fun _ => Nat.pos_of_ne_zero ha⟩
        rw [hc] at hn
        cases hn
      · rename_i hc
        exact Or.inr ⟨hq, fun _ => rfl, fun hn => absurd hn hc⟩

/-! ## Rounds -/

theorem Lawful.turns (h : c.Lawful capacity) (ps : List Party) :
    (c.turns b capacity ps).Lawful capacity :=
  turns_keep (fun h ha => h.acts ha) (fun h hnone => h.rest hnone) ps h

theorem Lawful.round (h : c.Lawful capacity) : (c.round b capacity).Lawful capacity :=
  have ht := h.turns (b := b) c.lead.order
  ⟨ht.holds, ht.nodup, ht.bounded, ht.full, ht.drained, ht.expects⟩

/-- Turns settle those who have them, and those who were settled before stay so. -/
theorem settled_turns (ps done : List Party) (h : c.Lawful capacity)
    (hdone : ∀ q ∈ done, c.Settled q) (hf : (c.turns b capacity ps).phase.failure? = none) :
    ∀ q, q ∈ done ∨ q ∈ ps → (c.turns b capacity ps).Settled q := by
  induction ps generalizing c done with
  | nil =>
    rintro q (hq | hq)
    · exact hdone q hq
    · cases hq
  | cons p ps ih =>
    rw [turns_cons] at hf ⊢
    by_cases hfail : c.phase.failure?.isSome = true
    · rw [if_pos hfail, turns_of_failed hfail] at hf
      rw [hf] at hfail
      cases hfail
    · rw [if_neg hfail] at hf ⊢
      -- those who are settled stay so while this party acts, and again while it waits
      obtain ⟨d, ⟨hd, hothers⟩, hnone, hturn⟩ := turn_ends (p := p) (c := c)
        (P := fun d => d.Lawful capacity ∧ ∀ q ∈ done, q ≠ p → d.Settled q)
        (fun ⟨hc, hs⟩ ha => ⟨hc.acts ha, fun q hq hne => (hs q hq hne).acts (hc.acts ha) ha hne⟩)
        ⟨h, fun q hq _ => hdone q hq⟩
      rw [hturn] at hf ⊢
      have hnow : ∀ q ∈ p :: done, (d.rest p).Settled q := by
        intro q hq
        by_cases hne : q = p
        · rw [hne]
          exact settled_rest hnone
        · exact (hothers q (List.mem_of_ne_of_mem hne hq) hne).rest p
      intro q hq
      refine ih (p :: done) (hd.rest hnone) hnow hf q ?_
      rcases hq with hq | hq
      · exact Or.inl (List.mem_cons_of_mem _ hq)
      · rcases List.mem_cons.1 hq with rfl | hq
        · exact Or.inl List.mem_cons_self
        · exact Or.inr hq

/-- **A round that is not followed by another one at the same instant leaves nothing to do at
it.** -/
theorem quiet_round (h : c.Lawful capacity) (hpos : 0 < capacity)
    (hf : (c.round b capacity).phase.failure? = none)
    (ha : (c.round b capacity).pace.again = false) :
    (c.round b capacity).phase.queue = [] ∧
      (∀ s, ((c.round b capacity).phase.reader s).Waits (c.round b capacity).phase.now) ∧
      ((c.round b capacity).phase.isComplete = true → 0 < (c.round b capacity).pace.allowance) := by
  have hlawful : (c.round b capacity).Lawful capacity := h.round
  -- everybody had a turn, and nobody asks for another round, so that all are blocked
  have hblocked : ∀ p, (c.round b capacity).Blocked p := by
    intro p
    have hs := settled_turns c.lead.order [] h (by simp) hf p
      (Or.inr (Party.mem_order _ p))
    rcases hs with hs | hs
    · have hpace : (c.turns b capacity c.lead.order).pace = (c.round b capacity).pace := rfl
      rw [hpace, ha] at hs
      cases hs
    · exact hs
  obtain ⟨hq, -, hallow⟩ := hblocked .collector
  have hnot := hlawful.not_holds hpos hq fun s ⟨e, he⟩ => by
    have := hblocked (.reader s)
    simp only [Blocked, he] at this
    exact this
  refine ⟨hq, fun s => ?_, hallow⟩
  have hs := hblocked (.reader s)
  simp only [Blocked] at hs
  unfold Reader.Waits
  -- what blocks a reader is time, except for room, for which nobody waits with the queue drained
  cases hstage : ((c.round b capacity).phase.reader s).stage with
  | ready => simp only [hstage] at hs
  | reading since => simpa only [hstage] using hs
  | hanging => trivial
  | holding e => exact hnot s ⟨e, hstage⟩
  | finished => trivial
  | failed e => exact Phase.not_failed_of_failure? hf hstage

end Course

end BoardBench
