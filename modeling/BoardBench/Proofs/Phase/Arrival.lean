import BoardBench.Proofs.Phase.Deadline

/-!
# Arrivals — the merged log is in the order in which the lines were read

Every read of a scripted link takes the delay of the link, whether it brings an event, an echo or a
banner. So the instants at which events arrive can be told from the queue (`arrivals`). A reader
hands an event over at the instant at which it read the line, and time does not go on before the
events of an instant are all queued. So the events that are merged or queued can at any time be
dated by the instants at which they arrived, and are in order (`Phase.DatedBy`).

What arrives at one instant from both links is in no order that instants could tell. Unless reads
of both end together later than at once, this is only so at the very start, and only if neither link
has a delay. There it is the first reader that has the first turn, and **`FirstIsThrough` says that
it gets through in it**, if the round lets it.

Each event is dated, as two lists of instants would not do: `DatedBy` has one list of dated events
with sides, which is sorted by the instants and whose parts are what arrived from either side. The
order of the log is then a fact about that list, and the sides are needed no longer
(`merge_arrivals`). An event that a reader still holds is not in the list. It has the present
instant, which is the greatest so far, and so it can be put at the end when it is delivered.

`FirstFits` counts what the first reader hears and not what it delivers, so that it can be told from
the link before the phase begins. It speaks of the round that the session is in when the phase
begins, which need not be a fresh one.
-/

set_option autoImplicit false

namespace BoardBench

/-- An event, and the instant at which its line was read. -/
structure Arrival where
  instant : Nat
  event : Event
deriving Repr, DecidableEq

/-- One arrival is not later than another. -/
def Arrival.notAfter (x y : Arrival) : Bool :=
  decide (x.instant ≤ y.instant)

/-! ## What arrives from a link -/

namespace ScriptedLink

/-- What the first `n` reads of a phase bring that began at some instant. -/
def arrivalsIn (b : Bracket) (began n : Nat) (l : ScriptedLink) : List Arrival :=
  (l.pending.take n).zipIdx.filterMap fun (i, k) =>
    (i.event? b l.name).map (Arrival.mk (began + (k + 1) * l.delayMs))

/-- What all of the reads bring. -/
def arrivals (b : Bracket) (began : Nat) (l : ScriptedLink) : List Arrival :=
  l.arrivalsIn b began (l.reads b)

variable {b : Bracket} {l : ScriptedLink} {began now n m : Nat} {i : Incoming}

theorem arrivalsIn_succ (hi : l.pending[n]? = some i) :
    l.arrivalsIn b began (n + 1) = l.arrivalsIn b began n ++
      ((i.event? b l.name).map (Arrival.mk (began + (n + 1) * l.delayMs))).toList := by
  have hlt : n < l.pending.length := (List.getElem?_eq_some_iff.1 hi).1
  have hlength : (l.pending.take n).length = n := List.length_take_of_le (Nat.le_of_lt hlt)
  simp only [arrivalsIn, List.take_add_one, hi, Option.toList_some, List.zipIdx_append,
    List.filterMap_append, hlength, List.zipIdx_singleton, Nat.zero_add]
  cases h : i.event? b l.name <;> simp [h]

theorem events_arrivalsIn (began n : Nat) :
    (l.arrivalsIn b began n).map (·.event) = l.heardIn b n := by
  simp only [arrivalsIn, heardIn, List.map_filterMap, Option.map_map]
  conv_rhs => rw [← List.zipIdx_map_fst 0 (l.pending.take n), List.filterMap_map]
  congr 1
  funext x
  exact Option.map_id'

theorem arrivalsIn_prefix (h : n ≤ m) : l.arrivalsIn b began n <+: l.arrivalsIn b began m := by
  have htake : l.pending.take n <+: l.pending.take m := List.take_prefix_take_left h
  obtain ⟨more, hmore⟩ := htake
  rw [arrivalsIn, arrivalsIn, ← hmore, List.zipIdx_append, List.filterMap_append]
  exact List.prefix_append _ _

/-- Everything arrives at the end of some read. -/
theorem instant_of_arrival {a : Arrival} (ha : a ∈ l.arrivals b began) :
    ∃ k < l.reads b, a.instant = began + (k + 1) * l.delayMs := by
  obtain ⟨⟨i, k⟩, hik, hsome⟩ := List.mem_filterMap.1 ha
  obtain ⟨e, -, rfl⟩ := Option.map_eq_some_iff.1 hsome
  obtain ⟨hlt, -⟩ := List.getElem?_eq_some_iff.1 (List.mk_mem_zipIdx_iff_getElem?.1 hik)
  rw [List.length_take] at hlt
  exact ⟨k, by omega, rfl⟩

/-- The reads that brought a reader to where it is brought nothing but the event that it holds. -/
theorem arrivalsIn_of_held {r : Reader ScriptedLink} (hle : n ≤ m)
    (hheard : l.heardIn b m = l.heardIn b n ++ r.held) (h : l.Standing b began now m r) :
    l.arrivalsIn b began m = l.arrivalsIn b began n ++ r.held.map (Arrival.mk now) := by
  obtain ⟨more, hmore⟩ : l.arrivalsIn b began n <+: l.arrivalsIn b began m := arrivalsIn_prefix hle
  have hevents : more.map (·.event) = r.held := by
    rw [← events_arrivalsIn began, ← events_arrivalsIn began, ← hmore, List.map_append] at hheard
    exact List.append_cancel_left hheard
  have hpos := h.position
  cases hs : r.stage with
  | holding e =>
    rw [hs] at hpos
    obtain ⟨i, k, rfl, -, hi, hevent⟩ := hpos
    have hheld : r.held = [e] := by simp [Reader.held, hs]
    rw [hheld] at hevents ⊢
    obtain ⟨a, rfl, -⟩ := List.map_eq_singleton_iff.1 hevents
    -- the last arrival is the one that the reader holds
    have hlast : l.arrivalsIn b began (k + 1) = _ := arrivalsIn_succ hi
    have hsome : i.event? b l.name = some e := by simp [Incoming.event?, hevent]
    rw [hsome, ← hmore] at hlast
    have ha : [a] = [Arrival.mk (began + (k + 1) * l.delayMs) e] := (List.append_inj' hlast rfl).2
    rw [← hmore, ha, h.holding e hs]
    rfl
  | _ =>
    have hheld : r.held = [] := by simp [Reader.held, hs]
    rw [hheld] at hevents ⊢
    rw [← hmore, List.map_eq_nil_iff.1 hevents]
    rfl

end ScriptedLink

/-! ## What a reader hands over -/

/-- A reader on time, and what it has handed over: what arrived so far, but for the event that it
holds. -/
def Reader.Reported (b : Bracket) (l : ScriptedLink) (began now : Nat) (as : List Arrival)
    (r : Reader ScriptedLink) : Prop :=
  ∃ rs es, Progress b l rs es r ∧ r.OnTime began now rs ∧
    as ++ r.held.map (Arrival.mk now) = (l.write b.start).arrivalsIn b began rs.length

namespace Reader.Reported

variable {b : Bracket} {l : ScriptedLink} {began now : Nat} {as : List Arrival}
  {r : Reader ScriptedLink}

theorem start (h : r.Reported b l began now as) (hs : r.stage = .ready) :
    (r.start b now).Reported b l began now as := by
  obtain ⟨rs, es, hp, ht, has⟩ := h
  obtain ⟨hstart, hnone⟩ := hp.start hs now
  have hheld : r.held = [] := by simp [held, hs]
  exact ⟨rs, es, hstart, ht.start hs, by rw [hnone, ← hheld]; exact has⟩

theorem receive {since : Nat} (h : r.Reported b l began now as) (hs : r.stage = .reading since)
    (hdue : since + (Link.read r.link).delayMs ≤ now) :
    (r.receive b now).Reported b l began now as := by
  obtain ⟨rs, es, hp, ht, has⟩ := h
  have hheld : r.held = [] := by simp [held, hs]
  obtain ⟨more, hmore, hwaited⟩ := hp.receive hs now
  have htime := ht.receive hs hdue hwaited
  have hready : (r.receive b now).stage ≠ .ready := receive_ne_ready b now r
  have hheard := (hmore.scripted hready).heard
  rw [(hp.scripted (by simp [hs])).heard] at hheard
  refine ⟨rs ++ more, _, hmore, htime, ?_⟩
  rw [ScriptedLink.arrivalsIn_of_held (by simp) hheard.symm (hmore.standing htime hready), ← has,
    hheld, List.map_nil, List.append_nil]

/-- What is handed over arrived right now. -/
theorem deliver {e : Event} (h : r.Reported b l began now as) (hs : r.stage = .holding e) :
    (⟨r.link, afterDelivery b now e⟩ : Reader ScriptedLink).Reported b l began now
      (as ++ [⟨now, e⟩]) := by
  obtain ⟨rs, es, hp, ht, has⟩ := h
  have hheld : r.held = [e] := by simp [held, hs]
  obtain ⟨hdeliver, hnone⟩ := hp.deliver hs now
  refine ⟨rs, es, hdeliver, ht.deliver hs, ?_⟩
  rw [hnone, ← has, hheld, List.map_nil, List.append_nil]
  rfl

theorem wait {t : Nat} (h : r.Reported b l began now as) (hw : r.Waits now) (ht : now ≤ t)
    (hdue : ∀ u, r.due? = some u → now < u → t ≤ u) : r.Reported b l began t as := by
  obtain ⟨rs, es, hp, htime, has⟩ := h
  have hheld : r.held = [] := by
    unfold Waits at hw
    unfold held
    split
    · rename_i e hs
      simp only [hs] at hw
    · rfl
  exact ⟨rs, es, hp, htime.wait hw ht hdue, by rw [hheld] at has ⊢; exact has⟩

end Reader.Reported

/-! ## The order of the log -/

namespace Phase

/-- The events that are merged or queued, dated: each side's are those that its reader has handed
over, and all are in the order in which they arrived. -/
structure DatedBy (b : Bracket) (l₀ : Side → ScriptedLink) (began : Nat)
    (zs : List (Side × Arrival)) (p : Phase ScriptedLink) : Prop where
  contents : zs.map (fun z => (z.1, z.2.event)) = p.log.toList ++ p.queue
  sorted : zs.Pairwise fun x y => x.2.instant ≤ y.2.instant
  past : ∀ z ∈ zs, z.2.instant ≤ p.now
  reported : ∀ s, (p.reader s).Reported b (l₀ s) began p.now (s.part zs)

variable {b : Bracket} {l₀ : Side → ScriptedLink} {began : Nat} {zs : List (Side × Arrival)}
  {p : Phase ScriptedLink}

theorem DatedBy.setReader (h : p.DatedBy b l₀ began zs) {s : Side} {r : Reader ScriptedLink}
    (hr : r.Reported b (l₀ s) began p.now (s.part zs)) :
    (p.setReader r s).DatedBy b l₀ began zs where
  contents := by rw [log_setReader, queue_setReader, h.contents]
  sorted := h.sorted
  past := by rw [now_setReader]; exact h.past
  reported := by
    rw [now_setReader]
    exact forall_setReader (P := fun t r => r.Reported b (l₀ t) began p.now (t.part zs))
      h.reported hr

theorem DatedBy.deliver (h : p.DatedBy b l₀ began zs) {s : Side} {e : Event}
    (hs : (p.reader s).stage = .holding e) :
    ((p.setReader ⟨(p.reader s).link, Reader.afterDelivery b p.now e⟩ s).enqueue (s, e)).DatedBy
      b l₀ began (zs ++ [(s, ⟨p.now, e⟩)]) where
  contents := by
    rw [List.map_append, h.contents, log_enqueue, queue_enqueue, log_setReader, queue_setReader,
      List.append_assoc]
    rfl
  sorted := by
    refine List.pairwise_append.2 ⟨h.sorted, List.pairwise_singleton _ _, fun x hx y hy => ?_⟩
    rw [List.mem_singleton.1 hy]
    exact h.past x hx
  past := by
    intro z hz
    rw [now_enqueue, now_setReader]
    rcases List.mem_append.1 hz with hz | hz
    · exact h.past z hz
    · obtain rfl := List.mem_singleton.1 hz
      exact Nat.le_refl _
  reported := by
    intro t
    rw [reader_enqueue, now_enqueue, now_setReader]
    by_cases hts : t = s
    · subst hts
      have hpart : t.part (zs ++ [(t, ⟨p.now, e⟩)]) = t.part zs ++ [⟨p.now, e⟩] := by
        simp [Side.part]
      rw [reader_setReader_self, hpart]
      exact (h.reported t).deliver hs
    · have hpart : t.part (zs ++ [(s, ⟨p.now, e⟩)]) = t.part zs := by
        simp [Side.part, Ne.symm hts]
      rw [reader_setReader_of_ne _ _ hts, hpart]
      exact h.reported t

theorem DatedBy.merge (h : p.DatedBy b l₀ began zs) {x : Side × Event} {rest : List (Side × Event)}
    (hq : p.queue = x :: rest) : (p.mergeFront x rest).DatedBy b l₀ began zs where
  contents := by
    rw [h.contents, hq, log_mergeFront, queue_mergeFront, Array.toList_push, List.append_assoc]
    rfl
  sorted := h.sorted
  past := h.past
  reported := by
    rw [reader_mergeFront]
    exact h.reported

/-- Time goes on when nobody holds an event. -/
theorem DatedBy.atInstant (h : p.DatedBy b l₀ began zs) {t : Nat} (ht : p.now ≤ t)
    (hw : ∀ s, (p.reader s).Waits p.now)
    (hdue : ∀ s u, (p.reader s).due? = some u → p.now < u → t ≤ u) :
    (p.atInstant t).DatedBy b l₀ began zs where
  contents := h.contents
  sorted := h.sorted
  past z hz := Nat.le_trans (h.past z hz) (Nat.le_max_left _ _)
  reported s := by
    show (p.reader s).Reported b (l₀ s) began (max p.now t) (s.part zs)
    rw [Nat.max_eq_right ht]
    exact (h.reported s).wait (hw s) ht (hdue s)

/-- A reader that is through has handed over everything. -/
theorem DatedBy.part_of_finished (h : p.DatedBy b l₀ began zs) {s : Side}
    (hs : (p.reader s).stage = .finished) :
    s.part zs = ((l₀ s).write b.start).arrivals b began := by
  obtain ⟨rs, es, hp, -, has⟩ := h.reported s
  have hheld : (p.reader s).held = [] := by simp [Reader.held, hs]
  have hpos := (hp.scripted (by simp [hs])).position
  rw [hs] at hpos
  rwa [hheld, List.map_nil, List.append_nil, ← hpos.2.2] at has

/-- With nothing left in the queue, the log is what can be dated. -/
theorem DatedBy.events (h : p.DatedBy b l₀ began zs) (hq : p.queue = []) :
    p.events = zs.map (·.2.event) := by
  have hcontents := congrArg (List.map (·.2)) h.contents
  rw [hq, List.append_nil, List.map_map] at hcontents
  exact hcontents.symm

end Phase

namespace Course

open ScriptedLink

variable {b : Bracket} {l₀ : Side → ScriptedLink} {began capacity horizon : Nat}
  {c d : Course ScriptedLink} {p : Party}

/-- What was merged or queued in a course can be dated. -/
def Dated (b : Bracket) (l₀ : Side → ScriptedLink) (began : Nat) (c : Course ScriptedLink) : Prop :=
  ∃ zs, c.phase.DatedBy b l₀ began zs

theorem Dated.acts (h : c.Dated b l₀ began) (ha : Acts b capacity c p d) : d.Dated b l₀ began := by
  obtain ⟨zs, h⟩ := h
  cases ha with
  | start hs => exact ⟨zs, h.setReader ((h.reported _).start hs)⟩
  | receive hs hdue _ => exact ⟨zs, h.setReader ((h.reported _).receive hs hdue)⟩
  | deliver hs _ _ _ => exact ⟨_, h.deliver hs⟩
  | merge hq _ =>
    refine ⟨zs, ?_⟩
    rw [phase_afterMerge]
    exact h.merge hq

theorem Dated.round (h : c.Dated b l₀ began) : (c.round b capacity).Dated b l₀ began := by
  refine round_keeps (P := fun c : Course ScriptedLink => c.Dated b l₀ began) ?_ ?_ ?_ h
  · intro c d p hc ha
    exact hc.acts ha
  · intro c p hc _
    unfold Dated
    rw [phase_rest]
    exact hc
  · intro c p hc
    exact hc

theorem Dated.again (h : d.Dated b l₀ began) : (d.newRound d.phase.now).Dated b l₀ began := by
  unfold Dated
  rw [phase_newRound_now]
  exact h

theorem Dated.next {t : Nat} (h : d.Dated b l₀ began)
    (hw : ∀ s, (d.phase.reader s).Waits d.phase.now) (hdue : d.phase.nextDue? = some t) :
    (d.newRound t).Dated b l₀ began := by
  obtain ⟨zs, h⟩ := h
  exact ⟨zs, h.atInstant (Phase.now_le_of_nextDue? hdue) hw fun _ _ => Phase.nextDue?_le hdue⟩

/-- No later than the last read of some link. -/
def InTime (b : Bracket) (l₀ : Side → ScriptedLink) (began now : Nat) : Prop :=
  ∃ s, now ≤ began + (((l₀ s).write b.start).passed b + 1) * ((l₀ s).write b.start).delayMs

/-- Time goes on to the end of a read. -/
theorem RoundEnd.inTime_nextDue {t : Nat} (h : d.RoundEnd b l₀ began)
    (hf : d.phase.failure? = none) (hdue : d.phase.nextDue? = some t) : InTime b l₀ began t := by
  obtain ⟨s, u, hu, hlt⟩ := Phase.due_of_nextDue? hdue
  obtain ⟨n, hstand⟩ := h.standing s (h.started hf s)
  have hle := Phase.nextDue?_le hdue hu hlt
  refine ⟨s, Nat.le_trans hle ?_⟩
  cases hs : (d.phase.reader s).stage with
  | reading since =>
    have hpos := hstand.position
    rw [hs] at hpos
    have hmono := Nat.mul_le_mul_right ((l₀ s).write b.start).delayMs (Nat.add_le_add_right hpos 1)
    have hsince := (hstand.reading since hs).1
    simp only [Reader.due?, hs, hstand.link, delayMs_read_afterReads, Option.some.injEq] at hu
    rw [Nat.succ_mul] at hmono
    omega
  | _ => simp [Reader.due?, hs] at hu

/-- When both readers are through in time, it is the end of the later last read. -/
theorem RoundEnd.now_of_finished (h : d.RoundEnd b l₀ began) (hf : d.phase.failure? = none)
    (hdone : ∀ s, (d.phase.reader s).stage = .finished) (htime : InTime b l₀ began d.phase.now) :
    (∀ s, (((l₀ s).write b.start).stop? b).isSome = true) ∧
      d.phase.now = began + max (((l₀ .first).write b.start).endMs b)
        (((l₀ .second).write b.start).endMs b) := by
  have hstop : ∀ s, (((l₀ s).write b.start).stop? b).isSome = true ∧
      began + ((l₀ s).write b.start).endMs b ≤ d.phase.now := fun s => by
    obtain ⟨n, hstand⟩ := h.standing s (h.started hf s)
    exact hstand.of_finished (hdone s)
  refine ⟨fun s => (hstop s).1, ?_⟩
  have hfirst := (hstop .first).2
  have hsecond := (hstop .second).2
  obtain ⟨s, hle⟩ := htime
  rw [← reads_of_stop (hstop s).1] at hle
  have hend : d.phase.now ≤ began + ((l₀ s).write b.start).endMs b := hle
  cases s <;> omega

/-- **A run ends with a round behind which all that is merged or queued can be dated**, no later
than the last read of some link. -/
theorem RoundStart.run_dated (h : c.RoundStart b l₀ began capacity) (hpos : 0 < capacity)
    (hdated : c.Dated b l₀ began) (hnow : c.phase.now ≤ began) (horizon : Nat) :
    ∃ d : Course ScriptedLink, d.RoundEnd b l₀ began ∧ d.Dated b l₀ began ∧
      InTime b l₀ began d.phase.now ∧
      LastRound horizon d (c.run b capacity horizon).1 (c.run b capacity horizon).2 := by
  obtain ⟨c', ⟨hc', hdated', htime⟩, hlast⟩ := run_lastRound (b := b) horizon
    (P := fun c => c.RoundStart b l₀ began capacity ∧ c.Dated b l₀ began ∧
      InTime b l₀ began c.phase.now)
    (fun {c} ⟨hc, hdated, htime⟩ hf => by
      refine ⟨hc.again hpos hf, hdated.round.again, ?_⟩
      rw [phase_newRound_now, now_round]
      exact htime)
    (fun {c t} ⟨hc, hdated, _⟩ hf ha hdue _ => by
      have hend := hc.round hpos
      refine ⟨hc.next hpos hf ha hdue, hdated.round.next (hend.quiet hf ha).2.1 hdue, ?_⟩
      show InTime b l₀ began (max _ t)
      rw [Nat.max_eq_right (Phase.now_le_of_nextDue? hdue)]
      exact hend.inTime_nextDue hf hdue)
    ⟨h, hdated, .first, by omega⟩
  exact ⟨_, hc'.round hpos, hdated'.round, by rw [now_round]; exact htime, hlast⟩

/-! ### At once -/

/-- The first reader is through, and nothing of it comes behind an event of the second one. -/
structure FirstIsThrough (c : Course ScriptedLink) : Prop where
  through : (c.phase.reader .first).stage = .finished
  before : (c.phase.log.toList ++ c.phase.queue).Pairwise fun x y =>
    x.1 = .second → y.1 = .second

theorem FirstIsThrough.setReader (h : c.FirstIsThrough) {s : Side} (r : Reader ScriptedLink)
    (hs : (c.phase.reader s).stage ≠ .finished) (steps : Nat) :
    (c.moved steps (c.phase.setReader r s)).FirstIsThrough where
  through := by
    have hne : Side.first ≠ s := fun hs' => hs (hs' ▸ h.through)
    show ((c.phase.setReader r s).reader .first).stage = .finished
    rw [Phase.reader_setReader_of_ne _ _ hne]
    exact h.through
  before := by
    rw [moved, Phase.log_setReader, Phase.queue_setReader]
    exact h.before

theorem FirstIsThrough.acts (h : c.FirstIsThrough) (ha : Acts b capacity c p d) :
    d.FirstIsThrough := by
  cases ha with
  | start hs => exact h.setReader _ (by simp [hs]) _
  | receive hs _ _ => exact h.setReader _ (by simp [hs]) _
  | @deliver s e hs _ _ _ =>
    -- the first reader has nothing left to hand over, so that whatever joins the queue is from the
    -- second one
    cases s with
    | first =>
      rw [h.through] at hs
      cases hs
    | second =>
      have hset := h.setReader ⟨(c.phase.reader .second).link,
        Reader.afterDelivery b c.phase.now e⟩ (s := .second) (by simp [hs]) 1
      refine ⟨hset.through, ?_⟩
      show (c.phase.log.toList ++ (c.phase.queue ++ [(Side.second, e)])).Pairwise _
      rw [← List.append_assoc]
      refine List.pairwise_append.2 ⟨h.before, List.pairwise_singleton _ _, fun x _ y hy _ => ?_⟩
      rw [List.mem_singleton.1 hy]
  | @merge x rest hq _ =>
    refine ⟨?_, ?_⟩
    · rw [phase_afterMerge]
      exact h.through
    · rw [phase_afterMerge]
      show ((c.phase.log.push x).toList ++ rest).Pairwise _
      have hsame : (c.phase.log.push x).toList ++ rest = c.phase.log.toList ++ c.phase.queue := by
        rw [hq, Array.toList_push, List.append_assoc]
        rfl
      rw [hsame]
      exact h.before

theorem FirstIsThrough.rest (h : c.FirstIsThrough) (p : Party) : (c.rest p).FirstIsThrough := by
  refine ⟨?_, ?_⟩
  · rw [phase_rest]
    exact h.through
  · rw [phase_rest]
    exact h.before

theorem FirstIsThrough.turns (h : c.FirstIsThrough) (ps : List Party) :
    (c.turns b capacity ps).FirstIsThrough :=
  turns_keep (fun hc ha => hc.acts ha) (fun hc _ => hc.rest _) ps h

theorem FirstIsThrough.round_newRound (h : c.FirstIsThrough) (t : Nat) :
    ((c.newRound t).round b capacity).FirstIsThrough :=
  have hnew : (c.newRound t).FirstIsThrough := ⟨h.through, h.before⟩
  have hturns : ((c.newRound t).turns b capacity (c.newRound t).lead.order).FirstIsThrough :=
    hnew.turns _
  ⟨hturns.through, hturns.before⟩

variable {l : ScriptedLink} {budget : Nat} {second : Reader ScriptedLink}

/-- A first reader that is to stop before it waits is through when its first turn ends. -/
theorem Alone.finishes (h : c.Alone b l began budget second) (hd : l.delayMs = 0)
    (hstop : ((l.write b.start).stop? b).isSome = true)
    (hroom : ((l.write b.start).heardIn b ((l.write b.start).reads b)).length ≤ capacity)
    (hbudget : ((l.write b.start).heardIn b ((l.write b.start).reads b)).length ≤ budget)
    (hnone : c.act? b capacity (.reader .first) = none) :
    (c.phase.reader .first).stage = .finished := by
  have hover := h.over hd hroom hbudget hnone
  obtain ⟨n, hpos⟩ := h.position hover
  generalize (c.phase.reader .first).stage = stage at hover hpos
  cases stage with
  | finished => rfl
  | hanging =>
    obtain ⟨hn, -, hreads⟩ := hpos
    have := reads_of_stop hstop
    omega
  | failed x =>
    have hfault := hpos.2.1
    rw [fault?_of_stop hstop] at hfault
    cases hfault
  | _ => exact hover.elim

/-- What the first reader does in its first turn brings events of the first link only. -/
theorem firstOnly_acts (h : ∀ x ∈ c.phase.log.toList ++ c.phase.queue, x.1 = .first)
    (ha : Acts b capacity c (.reader .first) d) :
    ∀ x ∈ d.phase.log.toList ++ d.phase.queue, x.1 = .first := by
  cases ha with
  | start _ => exact h
  | receive _ _ _ => exact h
  | @deliver _ e _ _ _ _ =>
    intro x hx
    have hx' : x ∈ c.phase.log.toList ++ (c.phase.queue ++ [(Side.first, e)]) := hx
    rw [← List.append_assoc] at hx'
    rcases List.mem_append.1 hx' with hx' | hx'
    · exact h x hx'
    · rw [List.mem_singleton.1 hx']

/-- **A first reader that stops before it waits is through before the second one has a turn.** -/
theorem Alone.firstIsThrough (h : c.Alone b l began budget second) (hd : l.delayMs = 0)
    (hstop : ((l.write b.start).stop? b).isSome = true)
    (hroom : ((l.write b.start).heardIn b ((l.write b.start).reads b)).length ≤ capacity)
    (hbudget : ((l.write b.start).heardIn b ((l.write b.start).reads b)).length ≤ budget)
    (hlead : c.lead = .reader .first) (hsound : c.phase.failure? = none)
    (hempty : c.phase.log.toList ++ c.phase.queue = []) : (c.round b capacity).FirstIsThrough := by
  obtain ⟨d, ⟨hd', hfirst⟩, hnone, hturn⟩ := turn_ends (p := .reader .first)
    (P := fun d => d.Alone b l began budget second ∧
      ∀ x ∈ d.phase.log.toList ++ d.phase.queue, x.1 = .first)
    (fun ⟨hc, hx⟩ ha => ⟨hc.acts hd ha, firstOnly_acts hx ha⟩)
    ⟨h, by rw [hempty]; exact fun x hx => absurd hx List.not_mem_nil⟩
  have hs := hd'.finishes hd hstop hroom hbudget hnone
  have hthrough : d.FirstIsThrough := by
    refine ⟨hs, List.pairwise_of_forall_mem_list fun x hx y _ hsecond => ?_⟩
    rw [hfirst x hx] at hsecond
    cases hsecond
  have hrest : d.rest (.reader .first) = d := by
    simp only [Course.rest, hs]
  have hround : (c.turns b capacity c.lead.order).FirstIsThrough := by
    rw [hlead, Party.order, turns_cons, if_neg (by simp [hsound]), hturn, hrest]
    exact hthrough.turns _
  exact ⟨hround.through, hround.before⟩

theorem FirstIsThrough.run (h : (c.round b capacity).FirstIsThrough)
    (hrun : c.run b capacity horizon = (.complete, d)) : d.FirstIsThrough := by
  obtain ⟨c', hc', hlast⟩ := run_lastRound (b := b) horizon
    (P := fun c : Course ScriptedLink => (c.round b capacity).FirstIsThrough)
    (fun h _ => h.round_newRound _) (fun h _ _ _ _ => h.round_newRound _) h
  rw [hrun] at hlast
  cases hlast with
  | complete _ _ => exact ⟨hc'.through, hc'.before⟩

end Course

/-! ## What a session gets -/

namespace Session

open ScriptedLink

variable {settings : PhaseSettings} {limit : Limit} {b : Bracket} {s s' : Session ScriptedLink}
  {log : List Event}

/-- What arrives from the link of a side in a phase that begins now. -/
def arrivals (b : Bracket) (s : Session ScriptedLink) (side : Side) : List Arrival :=
  (s.sent b side).arrivals b s.clock.now

/-- All that the readers hear. -/
def heard (b : Bracket) (s : Session ScriptedLink) (side : Side) : List Event :=
  (s.sent b side).heardIn b ((s.sent b side).reads b)

/-- If neither link has a delay, the queue and the present round have room for what the first reader
hears. -/
def FirstFits (settings : PhaseSettings) (b : Bracket) (s : Session ScriptedLink) : Prop :=
  (s.sent b .first).delayMs = 0 → (s.sent b .second).delayMs = 0 →
    (s.heard b .first).length ≤ min (max 1 settings.channelCapacity) s.clock.pace.allowance

theorem events_arrivals (side : Side) : (s.arrivals b side).map (·.event) = s.heard b side :=
  events_arrivalsIn _ _

theorem dated_begin {p : Phase ScriptedLink} {capacity : Nat}
    (hp : Phase.begin? capacity s.clock.now s.first s.second = some p) :
    (s.course p).Dated b (Side.pick s.first s.second) s.clock.now := by
  obtain rfl := Phase.eq_of_begin? hp
  refine ⟨[], rfl, .nil, by simp, ?_⟩
  rintro (_ | _) <;> exact ⟨[], [], .ready, rfl, rfl⟩

/-- Between links without delay, the first reader is through before the second one has a turn. -/
theorem firstIsThrough_of_complete {p : Phase ScriptedLink} {d : Course ScriptedLink}
    (hp : Phase.begin? (max 1 settings.channelCapacity) s.clock.now s.first s.second = some p)
    (hrun : (s.course p).run b (max 1 settings.channelCapacity) (s.horizon settings limit) =
      (.complete, d))
    (hstop : ((s.sent b .first).stop? b).isSome = true) (hfits : FirstFits settings b s)
    (hfirst : (s.sent b .first).delayMs = 0) (hsecond : (s.sent b .second).delayMs = 0) :
    d.FirstIsThrough := by
  have hfew := hfits hfirst hsecond
  have hsound : (s.course p).phase.failure? = none :=
    (roundStart_course (b := b) hp).sound
  have hempty : (s.course p).phase.log.toList ++ (s.course p).phase.queue = [] := by
    rw [Phase.eq_of_begin? hp]
    rfl
  have hround := (alone_begin hp).firstIsThrough hfirst hstop
    (Nat.le_trans hfew (Nat.min_le_left _ _)) (Nat.le_trans hfew (Nat.min_le_right _ _)) rfl
    hsound hempty
  exact hround.run hrun

/-- **The log of a phase that is through can be dated**: it is what arrived from the two links, in
the order in which it arrived, and the phase ends with the later one of the two stop messages. -/
theorem dated_of_runPhase (h : s.runPhase settings limit b = (.done log, s')) :
    ∃ zs : List (Side × Arrival), (∀ side, side.part zs = s.arrivals b side) ∧
      zs.Pairwise (fun x y => x.2.instant ≤ y.2.instant) ∧ log = zs.map (·.2.event) ∧
      (∀ side, ((s.sent b side).stop? b).isSome = true) ∧
      s'.clock.now =
        s.clock.now + max ((s.sent b .first).endMs b) ((s.sent b .second).endMs b) ∧
      (FirstFits settings b s → (s.sent b .first).delayMs = 0 → (s.sent b .second).delayMs = 0 →
        zs.Pairwise fun x y => x.1 = .second → y.1 = .second) := by
  obtain ⟨p, c, hp, hrun, rfl, rfl⟩ := complete_of_runPhase h
  have hpos := capacity_pos settings
  obtain ⟨d, hend, ⟨zs, hdated⟩, htime, hclose⟩ :=
    (roundStart_course hp).run_dated hpos (dated_begin hp) (Nat.le_of_eq (now_course hp))
      (s.horizon settings limit)
  rw [hrun] at hclose
  cases hclose with
  | complete hf hc =>
    obtain ⟨hdone, hq⟩ := Phase.isComplete_iff.1 hc
    obtain ⟨hstop, hends⟩ := hend.now_of_finished hf hdone htime
    simp only [sent_eq] at hstop hends
    refine ⟨zs, fun side => ?_, hdated.sorted, hdated.events hq, hstop, hends, ?_⟩
    · rw [hdated.part_of_finished (hdone side), sent_eq]
      rfl
    · intro hfits hfirst hsecond
      have hbefore : (d.phase.log.toList ++ d.phase.queue).Pairwise fun x y =>
          x.1 = .second → y.1 = .second :=
        (firstIsThrough_of_complete hp hrun (hstop .first) hfits hfirst hsecond).before
      rwa [← hdated.contents, List.pairwise_map] at hbefore

/-- The log of a phase that is through, in the order of arrival. -/
structure InOrderOfArrival (settings : PhaseSettings) (b : Bracket) (s : Session ScriptedLink)
    (log : List Event) (s' : Session ScriptedLink) : Prop where
  /-- What arrived from the two links, sorted by the instants. -/
  sorted : ∃ zs, Interleaving (s.arrivals b .first) (s.arrivals b .second) zs ∧
    zs.Pairwise (fun x y => x.instant ≤ y.instant) ∧ log = zs.map (·.event)
  /-- The last arrival of a link is its stop message. -/
  stops : ∀ side, ∃ e, e.payload = b.stop ∧ (s.arrivals b side).getLast? =
    some ⟨s.clock.now + (s.sent b side).endMs b, e⟩
  /-- The phase ends with the later stop message. -/
  ends : s'.clock.now =
    s.clock.now + max ((s.sent b .first).endMs b) ((s.sent b .second).endMs b)
  /-- Of what arrives at once from both links, that from the first one comes first. -/
  merged : ReadsApart b (s.sent b .first) (s.sent b .second) → FirstFits settings b s →
    log = (List.merge (s.arrivals b .first) (s.arrivals b .second) Arrival.notAfter).map (·.event)
  bothAtOnce : FirstFits settings b s → (s.sent b .first).delayMs = 0 →
    (s.sent b .second).delayMs = 0 → log = s.heard b .first ++ s.heard b .second
  secondAtOnce : 0 < (s.sent b .first).delayMs → (s.sent b .second).delayMs = 0 →
    log = s.heard b .second ++ s.heard b .first

theorem getLast_arrivals {side : Side} (h : ((s.sent b side).stop? b).isSome = true) :
    ∃ e, e.payload = b.stop ∧ (s.arrivals b side).getLast? =
      some ⟨s.clock.now + (s.sent b side).endMs b, e⟩ := by
  obtain ⟨e, he⟩ := Option.isSome_iff_exists.1 h
  obtain ⟨hevent, hpayload⟩ := Option.filter_eq_some_iff.1 he
  obtain ⟨i, hi, hi'⟩ := Option.bind_eq_some_iff.1 hevent
  refine ⟨e, by simpa using hpayload, ?_⟩
  rw [arrivals, ScriptedLink.arrivals, endMs, reads_of_stop h, arrivalsIn_succ hi, hi']
  exact List.getLast?_concat

/-- Reads of both links that end together do so at once, and then what is from the first link comes
before what is from the second one. -/
theorem merge_arrivals {zs : List (Side × Arrival)}
    (hpart : ∀ side, side.part zs = s.arrivals b side)
    (hsorted : zs.Pairwise fun x y => x.2.instant ≤ y.2.instant)
    (hbefore : (s.sent b .first).delayMs = 0 → (s.sent b .second).delayMs = 0 →
      zs.Pairwise fun x y => x.1 = .second → y.1 = .second)
    (hapart : ReadsApart b (s.sent b .first) (s.sent b .second)) :
    zs.map (·.2) =
      List.merge (s.arrivals b .first) (s.arrivals b .second) Arrival.notAfter := by
  -- a tie between the links can only be at the start, because elsewhere their reads do not end
  -- together
  have hties : ∀ x ∈ zs, ∀ y ∈ zs, x.1 = .second → y.1 = .first → x.2.instant = y.2.instant →
      (s.sent b .first).delayMs = 0 ∧ (s.sent b .second).delayMs = 0 := by
    intro x hx y hy hxs hys heq
    obtain ⟨j, hj, hxj⟩ := instant_of_arrival (hpart .second ▸ Side.mem_part hx hxs)
    obtain ⟨i, hi, hyi⟩ := instant_of_arrival (hpart .first ▸ Side.mem_part hy hys)
    have hsame : (i + 1) * (s.sent b .first).delayMs = (j + 1) * (s.sent b .second).delayMs := by
      omega
    have hzero := hapart (i + 1) hi (j + 1) hj hsame
    have hzero' := hsame ▸ hzero
    exact ⟨(Nat.mul_eq_zero.1 hzero).resolve_left (Nat.succ_ne_zero i),
      (Nat.mul_eq_zero.1 hzero').resolve_left (Nat.succ_ne_zero j)⟩
  -- so the second link is strictly later wherever it comes first in the log, which is what fixes
  -- the merge
  have hafter : zs.Pairwise fun x y =>
      x.1 = .second → y.1 = .first → x.2.instant < y.2.instant := by
    by_cases hatonce : (s.sent b .first).delayMs = 0 ∧ (s.sent b .second).delayMs = 0
    · refine (hbefore hatonce.1 hatonce.2).imp fun {x y} h hx hy => ?_
      rw [h hx] at hy
      cases hy
    · refine hsorted.imp_of_mem fun {x y} hx hy hle hxs hys => ?_
      exact Nat.lt_of_le_of_ne hle fun heq => hatonce (hties x hx y hy hxs hys heq)
  have hmerge : zs.map (·.2) = _ := merge_of_tagged (· == Side.first) Arrival.notAfter <| by
    refine (hsorted.and hafter).imp fun {x y} ⟨hle, hlt⟩ => ⟨fun _ _ => ?_, fun hx hy => ?_⟩
    · simpa [Arrival.notAfter] using hle
    · have hxs : x.1 = .second := by
        cases hside : x.1 with
        | first => simp [hside] at hx
        | second => rfl
      simpa [Arrival.notAfter] using hlt hxs (by simpa using hy)
  have hsecond := hpart .second
  rw [Side.part_second] at hsecond
  rw [hmerge, ← hpart .first, ← hsecond]
  rfl

/-- **The merged log is in the order of arrival.** A phase on two scripted links that is through has
the events of both in its log, in the order of the instants at which their lines were read, and it
ends with the later stop message. Provided that no two reads end together later than at once, this
is all: at once the first link comes first, unless there is more of it than a round allows. -/
theorem log_is_in_order_of_arrival (settings : PhaseSettings) (limit : Limit) (b : Bracket)
    (s s' : Session ScriptedLink) (log : List Event)
    (h : s.runPhase settings limit b = (.done log, s')) :
    InOrderOfArrival settings b s log s' := by
  obtain ⟨zs, hpart, hsorted, rfl, hstops, hends, hbefore⟩ := dated_of_runPhase h
  have hmerged : ReadsApart b (s.sent b .first) (s.sent b .second) → FirstFits settings b s →
      zs.map (·.2.event) = (List.merge (s.arrivals b .first) (s.arrivals b .second)
        Arrival.notAfter).map (·.event) := by
    intro hapart hfits
    rw [← merge_arrivals hpart hsorted (hbefore hfits) hapart, List.map_map]
    rfl
  have hatonce : ∀ {side : Side}, (s.sent b side).delayMs = 0 → ∀ a ∈ s.arrivals b side,
      a.instant = s.clock.now := by
    intro side hzero a ha
    obtain ⟨k, -, hk⟩ := instant_of_arrival ha
    rw [hk, hzero]
    rfl
  -- If a link has no delay, all its arrivals are at the start. Then the merge puts it as a whole
  -- before or behind the other.
  refine ⟨?_, fun side => getLast_arrivals (hstops side), hends, hmerged, ?_, ?_⟩
  · refine ⟨zs.map (·.2), ?_, List.pairwise_map.2 hsorted, by rw [List.map_map]; rfl⟩
    rw [← hpart .first, ← hpart .second]
    exact Side.interleaving_part zs
  · intro hfits hfirst hsecond
    have hapart : ReadsApart b (s.sent b .first) (s.sent b .second) :=
      fun i _ j _ _ => by rw [hfirst, Nat.mul_zero]
    rw [hmerged hapart hfits, List.merge_of_le, List.map_append, events_arrivals, events_arrivals]
    intro x y hx hy
    simp [Arrival.notAfter, hatonce hfirst x hx, hatonce hsecond y hy]
  · intro hfirst hsecond
    have hapart : ReadsApart b (s.sent b .first) (s.sent b .second) :=
      fun i _ j _ hij => by rw [hij, hsecond, Nat.mul_zero]
    have hfits : FirstFits settings b s := fun hzero => by omega
    rw [hmerged hapart hfits, merge_of_not_le, List.map_append, events_arrivals, events_arrivals]
    intro x hx y hy
    obtain ⟨k, -, hk⟩ := instant_of_arrival hx
    have hlate : 0 < (k + 1) * (s.sent b .first).delayMs := Nat.mul_pos (Nat.succ_pos k) hfirst
    simp only [Arrival.notAfter, hatonce hsecond y hy, decide_eq_false_iff_not]
    omega

/-- An echo and a banner cost the first reader time, and the second one is slower. -/
def staggered : Session ScriptedLink where
  first := ({ name := "a", delayMs := 2 } : ScriptedLink).respond
    "go" ["go", "[1] <inf> sut: x", "*** boot ***", "[2] <inf> sut: end"]
  second := ({ name := "b", delayMs := 5 } : ScriptedLink).respond
    "go" ["[1] <inf> tester: y", "[2] <inf> tester: end"]

def staggeredLog : List Event :=
  [⟨1, .inf, "sut", "x"⟩, ⟨1, .inf, "tester", "y"⟩, ⟨2, .inf, "sut", "end"⟩,
    ⟨2, .inf, "tester", "end"⟩]

/-- The lines are read after four, five, eight and ten milliseconds. -/
theorem staggered_log_is_in_order :
    ∃ s', staggered.runPhase {} none goBracket = (.done staggeredLog, s') ∧
      InOrderOfArrival {} goBracket staggered staggeredLog s' ∧ s'.clock.now = 10 ∧
      ReadsApart goBracket (staggered.sent goBracket .first) (staggered.sent goBracket .second) ∧
      FirstFits {} goBracket staggered := by
  have hclose := Course.run_satisfies (b := goBracket) 100 100
    (c := staggered.course staggered.newPhase)
    (P := fun r => r.1 = .complete ∧ r.2.phase.events = staggeredLog)
    (by decide +kernel :
      (Course.runWithin goBracket 256 (staggered.horizon {} none) 100 100
        (staggered.course staggered.newPhase)).any _ = true)
  rcases hrun : (staggered.course staggered.newPhase).run goBracket 256
    (staggered.horizon {} none) with ⟨close, c⟩
  rw [hrun] at hclose
  obtain ⟨rfl, hlog⟩ := of_decide_eq_true hclose
  have hdone : staggered.runPhase {} none goBracket = (.done c.phase.events, afterPhase c) :=
    runPhase_of_complete rfl hrun
  rw [hlog] at hdone
  have horder := log_is_in_order_of_arrival {} none goBracket staggered _ _ hdone
  refine ⟨_, hdone, horder, horder.ends.trans (by decide +kernel), ?_, ?_⟩
  · unfold ReadsApart
    decide +kernel
  · intro hzero
    cases hzero

/-- Neither link has a delay, the queue has room for all that is heard, and still the first link is
not through before the second one. -/
structure Interrupted (settings : PhaseSettings) (b : Bracket) (s : Session ScriptedLink) :
    Prop where
  atOnce : ∀ side, (s.sent b side).delayMs = 0
  apart : ReadsApart b (s.sent b .first) (s.sent b .second)
  roomy : (s.heard b .first).length + (s.heard b .second).length < max 1 settings.channelCapacity
  interrupted : ∃ log s', s.runPhase settings none b = (.done log, s') ∧
    log ≠ s.heard b .first ++ s.heard b .second

/-- The first link has one event more than a round allows before its stop message, and the second
one has nothing but its stop message. Some steps of the round were taken before. -/
def talkative (spent : Nat) : Session ScriptedLink where
  first := ({ name := "a" } : ScriptedLink).respond
    "go" (List.replicate (quantum + 1) "[1] <inf> sut: x" ++ ["[2] <inf> tester: end"])
  second := ({ name := "b" } : ScriptedLink).respond "go" ["[1] <inf> tester: end"]
  clock := { pace := { allowance := quantum - spent } }

/-- What a log has of the tester. -/
def fromTester (log : List Event) : List Event :=
  log.filter (·.device = "tester")

/-- It is enough to look at the two stop messages: where among the other events the second one
stands depends on the steps that were taken before, but it comes before the first one. -/
theorem interrupted_talkative {spent : Nat}
    (h : (Course.runWithin goBracket 1000 ((talkative spent).horizon crowdedSettings none) 1000 100
      ((talkative spent).course (talkative spent).newPhase)).any (fun r =>
        decide (r.1 = .complete ∧ fromTester r.2.phase.events =
          [⟨1, .inf, "tester", "end"⟩, ⟨2, .inf, "tester", "end"⟩])) = true) :
    Interrupted crowdedSettings goBracket (talkative spent) := by
  have hfirst : fromTester ((talkative spent).heard goBracket .first ++
      (talkative spent).heard goBracket .second) =
      [⟨2, .inf, "tester", "end"⟩, ⟨1, .inf, "tester", "end"⟩] := by
    change fromTester ((talkative 0).heard goBracket .first ++
      (talkative 0).heard goBracket .second) = _
    decide +kernel
  have hroomy : ((talkative spent).heard goBracket .first).length +
      ((talkative spent).heard goBracket .second).length <
        max 1 crowdedSettings.channelCapacity := by
    change ((talkative 0).heard goBracket .first).length +
      ((talkative 0).heard goBracket .second).length < max 1 crowdedSettings.channelCapacity
    decide +kernel
  have hclose := Course.run_satisfies (b := goBracket) 1000 100
    (c := (talkative spent).course (talkative spent).newPhase) h
  rcases hrun : ((talkative spent).course (talkative spent).newPhase).run goBracket 1000
    ((talkative spent).horizon crowdedSettings none) with ⟨close, c⟩
  rw [hrun] at hclose
  obtain ⟨rfl, hstops⟩ := of_decide_eq_true hclose
  refine ⟨fun side => by cases side <;> rfl, fun i _ j _ _ => Nat.mul_zero i, hroomy,
    _, _, runPhase_of_complete rfl hrun, fun heq => ?_⟩
  rw [heq, hfirst] at hstops
  exact absurd hstops (by decide)

/-- **More events than a round allows are interrupted**, whether the round is fresh or not. -/
theorem talkative_first_link_is_interrupted :
    Interrupted crowdedSettings goBracket (talkative 0) ∧
      Interrupted crowdedSettings goBracket (talkative 1) :=
  ⟨interrupted_talkative (by decide +kernel), interrupted_talkative (by decide +kernel)⟩

end Session

end BoardBench
