import BoardBench.Proofs.Phase.Progress
import BoardBench.Proofs.Phase.Rounds

/-!
# Timelines — in virtual time no read is late

In virtual time a phase does nothing before it is due and leaves nothing undone that is. So the
instant at which a reader has come to the end of some reads is the instant at which the phase
began, plus what the reads waited: `Reader.OnTime` says so of one reader, `Phase.Timed` of both,
and **every round starts and ends with a phase on time** (`run_timed`).

The point is the step to the next instant. It is taken only when nobody has anything to do
(`Course.quiet_round`), and it goes to the earliest read that is due, so that it passes over none.

`OnTime` is an equation where a reader has just done something, and an inequality where it waits: it
says what the clock shows at most. A reader that is through has no equation any more, since the
clock goes on without it. This is why the instant at which a phase ends is told from the reader that
is last, in the modules that follow.

`RoundStart` and `RoundEnd` are two invariants and not one, because a round breaks each of them in
the middle: a reader may hold an event there, somebody may have failed, and a promise may be out.
What holds between two rounds is a fact about the end of the one and the start of the next.
-/

set_option autoImplicit false

namespace BoardBench

variable {σ : Type} [Link σ]

/-! ## One reader -/

/-- A reader in a phase that began at some instant is on time: what it has done is done as soon as
its reads allowed, and what it waits for is not overdue. -/
def Reader.OnTime (began now : Nat) (rs : List Reception) (r : Reader σ) : Prop :=
  match r.stage with
  | .reading since => since = began + Reception.waited rs ∧ since ≤ now ∧
      now ≤ since + (Link.read r.link).delayMs
  | .hanging => began + Reception.waited rs ≤ now
  | .finished => began + Reception.waited rs ≤ now
  | _ => began + Reception.waited rs = now

theorem Reader.start_ne_ready (b : Bracket) (now : Nat) (r : Reader σ) :
    (r.start b now).stage ≠ .ready := by
  unfold Reader.start
  split <;> simp

theorem Reader.receive_ne_ready (b : Bracket) (now : Nat) (r : Reader σ) :
    (r.receive b now).stage ≠ .ready := by
  unfold Reader.receive
  split
  · simp
  · simp
  · split <;> simp

omit [Link σ] in
theorem Reader.afterDelivery_ne_ready (b : Bracket) (now : Nat) (e : Event) :
    Reader.afterDelivery b now e ≠ .ready := by
  unfold Reader.afterDelivery
  split <;> simp

theorem Reader.since_of_receive {b : Bracket} {now t : Nat} {r : Reader σ}
    (h : (r.receive b now).stage = .reading t) : t = now := by
  unfold Reader.receive at h
  split at h
  · cases h
  · cases h
  · split at h
    · exact (Stage.reading.inj h).symm
    · cases h
    · cases h

namespace Reader.OnTime

variable {b : Bracket} {began now : Nat} {rs more : List Reception} {r : Reader σ}

theorem start (h : r.OnTime began now rs) (hs : r.stage = .ready) :
    (r.start b now).OnTime began now rs := by
  simp only [Reader.OnTime, hs] at h
  unfold Reader.start
  split
  · exact ⟨h.symm, Nat.le_refl _, Nat.le_add_right _ _⟩
  · exact h

/-- A read that is due and not overdue ends now. -/
theorem receive {since : Nat} (h : r.OnTime began now rs) (hs : r.stage = .reading since)
    (hdue : since + (Link.read r.link).delayMs ≤ now)
    (hmore : more = [] ∧ (r.receive b now).stage = .hanging ∨
      Reception.waited more = (Link.read r.link).delayMs ∧
        (r.receive b now).stage ≠ .hanging) :
    (r.receive b now).OnTime began now (rs ++ more) := by
  simp only [Reader.OnTime, hs] at h
  obtain ⟨hsince, hle, hlate⟩ := h
  rcases hmore with ⟨rfl, hhang⟩ | ⟨hwaited, hnot⟩
  · simp only [Reader.OnTime, hhang, List.append_nil]
    omega
  · have hnow : began + Reception.waited (rs ++ more) = now := by
      rw [Reception.waited_append, hwaited]
      omega
    unfold Reader.OnTime
    split
    · rename_i t ht
      have : t = now := Reader.since_of_receive ht
      omega
    · exact Nat.le_of_eq hnow
    · exact Nat.le_of_eq hnow
    · exact hnow

theorem deliver {e : Event} (h : r.OnTime began now rs) (hs : r.stage = .holding e) :
    (⟨r.link, Reader.afterDelivery b now e⟩ : Reader σ).OnTime began now rs := by
  simp only [Reader.OnTime, hs] at h
  unfold Reader.afterDelivery
  split
  · exact Nat.le_of_eq h
  · exact ⟨h.symm, Nat.le_refl _, Nat.le_add_right _ _⟩

/-- A reader that waits stays on time up to the instant at which its read is due. -/
theorem wait {t : Nat} (h : r.OnTime began now rs) (hw : r.Waits now) (ht : now ≤ t)
    (hdue : ∀ u, r.due? = some u → now < u → t ≤ u) : r.OnTime began t rs := by
  unfold Reader.Waits at hw
  unfold Reader.OnTime at h ⊢
  cases hs : r.stage with
  | ready => simp only [hs] at hw
  | reading since =>
    simp only [hs] at h hw ⊢
    have := hdue (since + (Link.read r.link).delayMs) (by simp [Reader.due?, hs]) hw
    omega
  | hanging =>
    simp only [hs] at h ⊢
    omega
  | holding e => simp only [hs] at hw
  | finished =>
    simp only [hs] at h ⊢
    omega
  | failed e => simp only [hs] at hw

end Reader.OnTime

/-! ## Both readers -/

namespace Phase

/-- Both readers came to where they are by progress from their links, on time. -/
def Timed (b : Bracket) (l₀ : Side → σ) (began : Nat) (p : Phase σ) : Prop :=
  ∀ s, ∃ rs es, Progress b (l₀ s) rs es (p.reader s) ∧ (p.reader s).OnTime began p.now rs

variable {b : Bracket} {l₀ : Side → σ} {began : Nat} {p : Phase σ}

theorem Timed.setReader (h : p.Timed b l₀ began) {s : Side} {r : Reader σ} {rs : List Reception}
    {es : List Event} (hp : Progress b (l₀ s) rs es r) (ht : r.OnTime began p.now rs) :
    (p.setReader r s).Timed b l₀ began := by
  intro t
  rw [now_setReader]
  exact forall_setReader
    (P := fun t r => ∃ rs es, Progress b (l₀ t) rs es r ∧ r.OnTime began p.now rs) h
    ⟨rs, es, hp, ht⟩ t

/-- A phase in which everybody waits is on time up to the next instant at which a read is due. -/
theorem Timed.atInstant (h : p.Timed b l₀ began) {t : Nat} (ht : p.now ≤ t)
    (hw : ∀ s, (p.reader s).Waits p.now)
    (hdue : ∀ s u, (p.reader s).due? = some u → p.now < u → t ≤ u) :
    (p.atInstant t).Timed b l₀ began := by
  intro s
  obtain ⟨rs, es, hp, htime⟩ := h s
  refine ⟨rs, es, hp, ?_⟩
  show (p.reader s).OnTime began (max p.now t) rs
  rw [Nat.max_eq_right ht]
  exact htime.wait (hw s) ht (hdue s)

end Phase

/-! ## Rounds and runs -/

theorem Reader.now_lt_of_due {r : Reader σ} {now u : Nat}
    (h : r.due?.filter (now < ·) = some u) : now < u := by
  simpa using (Option.filter_eq_some_iff.1 h).2

/-- What is due later is not passed over. -/
theorem Phase.nextDue?_spec {p : Phase σ} {s : Side} {u : Nat} (hu : (p.reader s).due? = some u)
    (hlt : p.now < u) : ∃ t, p.nextDue? = some t ∧ p.now < t ∧ t ≤ u := by
  have hs : (p.reader s).due?.filter (p.now < ·) = some u :=
    Option.filter_eq_some_iff.2 ⟨hu, by simpa using hlt⟩
  unfold Phase.nextDue?
  cases s with
  | first =>
    have hs' : p.first.due?.filter (p.now < ·) = some u := hs
    rw [hs']
    split
    · rename_i v w hv hw
      cases hv
      exact ⟨min u w, rfl, Nat.lt_min.2 ⟨hlt, Reader.now_lt_of_due hw⟩, Nat.min_le_left _ _⟩
    · rename_i v hv _
      cases hv
      exact ⟨u, rfl, hlt, Nat.le_refl _⟩
    · rename_i hv
      cases hv
  | second =>
    have hs' : p.second.due?.filter (p.now < ·) = some u := hs
    rw [hs']
    split
    · rename_i v w hv hw
      cases hw
      exact ⟨min v u, rfl, Nat.lt_min.2 ⟨Reader.now_lt_of_due hv, hlt⟩, Nat.min_le_right _ _⟩
    · rename_i hv hw
      cases hw
    · exact ⟨u, rfl, hlt, Nat.le_refl _⟩

/-- No read is due between an instant and the next one at which one is. -/
theorem Phase.nextDue?_le {p : Phase σ} {s : Side} {t u : Nat} (ht : p.nextDue? = some t)
    (hu : (p.reader s).due? = some u) (hlt : p.now < u) : t ≤ u := by
  obtain ⟨v, hv, -, hle⟩ := nextDue?_spec hu hlt
  rw [ht] at hv
  exact Option.some.inj hv ▸ hle

theorem Phase.now_le_of_nextDue? {p : Phase σ} {t : Nat} (h : p.nextDue? = some t) : p.now ≤ t := by
  have hpos : ∀ {r : Reader σ} {v : Nat}, r.due?.filter (p.now < ·) = some v → p.now ≤ v :=
    fun hv => Nat.le_of_lt (Reader.now_lt_of_due hv)
  unfold Phase.nextDue? at h
  split at h
  · rename_i v w hv hw
    cases h
    exact Nat.le_min.2 ⟨hpos hv, hpos hw⟩
  · rename_i v hv _
    cases h
    exact hpos hv
  · exact hpos h

theorem Phase.due_of_nextDue? {p : Phase σ} {t : Nat}
    (h : p.nextDue? = some t) : ∃ s u, (p.reader s).due? = some u ∧ p.now < u := by
  have hpos : ∀ {r : Reader σ} {v : Nat}, r.due?.filter (p.now < ·) = some v →
      r.due? = some v ∧ p.now < v := by
    intro r v hv
    obtain ⟨hdue, hlt⟩ := Option.filter_eq_some_iff.1 hv
    exact ⟨hdue, by simpa using hlt⟩
  unfold Phase.nextDue? at h
  split at h
  · rename_i v w hv _
    exact ⟨.first, v, hpos hv⟩
  · rename_i v hv _
    exact ⟨.first, v, hpos hv⟩
  · exact ⟨.second, t, hpos h⟩

namespace Course

variable {b : Bracket} {l₀ : Side → σ} {began capacity : Nat} {c d : Course σ} {p : Party}

theorem Timed.acts (h : c.phase.Timed b l₀ began) (ha : Acts b capacity c p d) :
    d.phase.Timed b l₀ began := by
  cases ha with
  | @start s hs =>
    obtain ⟨rs, es, hp, ht⟩ := h s
    exact h.setReader (hp.start hs c.phase.now).1 (ht.start hs)
  | @receive s since hs hdue _ =>
    obtain ⟨rs, es, hp, ht⟩ := h s
    obtain ⟨more, hmore, hwaited⟩ := hp.receive hs c.phase.now
    exact h.setReader hmore (ht.receive hs hdue hwaited)
  | @deliver s e hs _ _ _ =>
    obtain ⟨rs, es, hp, ht⟩ := h s
    have hq : (c.phase.setReader ⟨(c.phase.reader s).link,
        Reader.afterDelivery b c.phase.now e⟩ s).Timed b l₀ began :=
      h.setReader (hp.deliver hs c.phase.now).1 (ht.deliver hs)
    intro t
    show ∃ rs es, Progress b (l₀ t) rs es (((c.phase.setReader _ s).enqueue (s, e)).reader t) ∧ _
    rw [Phase.reader_enqueue]
    exact hq t
  | @merge x rest hq _ =>
    intro t
    rw [phase_afterMerge]
    show ∃ rs es, Progress b (l₀ t) rs es ((c.phase.mergeFront x rest).reader t) ∧ _
    rw [Phase.reader_mergeFront]
    exact h t

theorem Timed.round (h : c.phase.Timed b l₀ began) :
    (c.round b capacity).phase.Timed b l₀ began := by
  refine round_keeps (P := fun c : Course σ => c.phase.Timed b l₀ began) ?_ ?_ ?_ h
  · intro c d p hc ha
    exact Timed.acts hc ha
  · intro c p hc _
    rw [phase_rest]
    exact hc
  · intro c p hc
    exact hc

/-! ### Who has started -/

theorem started_acts {s : Side} (h : (c.phase.reader s).stage ≠ .ready)
    (ha : Acts b capacity c p d) : (d.phase.reader s).stage ≠ .ready := by
  have hset : ∀ {t : Side} {r : Reader σ}, r.stage ≠ .ready →
      ((c.phase.setReader r t).reader s).stage ≠ .ready := by
    intro t r hr
    exact Phase.forall_setReader (P := fun u r => u = s → r.stage ≠ .ready)
      (fun u hu => hu ▸ h) (fun _ => hr) s rfl
  cases ha with
  | start _ => exact hset (Reader.start_ne_ready _ _ _)
  | receive _ _ _ => exact hset (Reader.receive_ne_ready _ _ _)
  | @deliver t e _ _ _ _ =>
    show (((c.phase.setReader _ t).enqueue (t, e)).reader s).stage ≠ .ready
    rw [Phase.reader_enqueue]
    exact hset (Reader.afterDelivery_ne_ready _ _ _)
  | @merge x rest _ _ =>
    rw [phase_afterMerge]
    show ((c.phase.mergeFront x rest).reader s).stage ≠ .ready
    rw [Phase.reader_mergeFront]
    exact h

theorem started_turns {s : Side} (h : (c.phase.reader s).stage ≠ .ready) (ps : List Party) :
    ((c.turns b capacity ps).phase.reader s).stage ≠ .ready := by
  refine turns_keep (P := fun c : Course σ => (c.phase.reader s).stage ≠ .ready)
    started_acts ?_ ps h
  intro c p hc _
  rw [phase_rest]
  exact hc

/-- Nothing keeps a reader from starting in its turn. -/
theorem started_turn (c : Course σ) (s : Side) :
    ((c.turn b capacity (.reader s)).phase.reader s).stage ≠ .ready := by
  obtain ⟨d, -, hnone, hturn⟩ := turn_ends (b := b) (P := fun _ : Course σ => True)
    (p := .reader s) (fun _ _ => trivial) (c := c) trivial
  rw [hturn, phase_rest]
  -- a reader that is ready can act, and the turn goes on up to where it cannot
  intro hs
  rw [act_of_acts (.start hs)] at hnone
  cases hnone

/-- The reader that leads starts in any case, and the others do unless somebody fails. -/
theorem started_of_turns {s : Side} {ps : List Party} (hs : .reader s ∈ ps)
    (hf : (c.turns b capacity ps).phase.failure? = none ∨
      c.phase.failure? = none ∧ ps.head? = some (.reader s)) :
    ((c.turns b capacity ps).phase.reader s).stage ≠ .ready := by
  induction ps generalizing c with
  | nil => cases hs
  | cons p ps ih =>
    by_cases hfail : c.phase.failure?.isSome = true
    · rw [turns_of_failed hfail] at hf
      rcases hf with hf | ⟨hf, -⟩
      · rw [hf] at hfail
        cases hfail
      · rw [hf] at hfail
        cases hfail
    · rw [turns_cons, if_neg hfail] at hf ⊢
      by_cases hp : p = .reader s
      · subst hp
        exact started_turns (started_turn c s) ps
      · rcases hf with hf | ⟨-, hhead⟩
        · exact ih (List.mem_of_ne_of_mem (Ne.symm hp) hs) (Or.inl hf)
        · exact absurd (Option.some.inj hhead) hp

/-! ### Runs -/

/-- What the start of every round in a run satisfies. -/
structure RoundStart (b : Bracket) (l₀ : Side → σ) (began capacity : Nat) (c : Course σ) :
    Prop where
  lawful : c.Lawful capacity
  timed : c.phase.Timed b l₀ began
  started : c.lead = .reader .first ∨ ∀ s, (c.phase.reader s).stage ≠ .ready
  sound : c.phase.failure? = none

/-- What the end of every round in a run satisfies. -/
structure RoundEnd (b : Bracket) (l₀ : Side → σ) (began : Nat) (c : Course σ) : Prop where
  timed : c.phase.Timed b l₀ began
  startedFirst : (c.phase.reader .first).stage ≠ .ready
  started : c.phase.failure? = none → ∀ s, (c.phase.reader s).stage ≠ .ready
  quiet : c.phase.failure? = none → c.pace.again = false →
    c.phase.queue = [] ∧ (∀ s, (c.phase.reader s).Waits c.phase.now) ∧
      (c.phase.isComplete = true → 0 < c.pace.allowance)

theorem RoundStart.round (h : c.RoundStart b l₀ began capacity) (hpos : 0 < capacity) :
    (c.round b capacity).RoundEnd b l₀ began where
  timed := Timed.round h.timed
  startedFirst := by
    show ((c.turns b capacity c.lead.order).phase.reader .first).stage ≠ .ready
    rcases h.started with hl | hs
    · exact started_of_turns (Party.mem_order _ _) (Or.inr ⟨h.sound, by rw [hl]; rfl⟩)
    · exact started_turns (hs .first) _
  started hf s := started_of_turns (Party.mem_order _ _) (Or.inl hf)
  quiet := quiet_round h.lawful hpos

omit [Link σ] in
theorem phase_newRound_now (c : Course σ) : (c.newRound c.phase.now).phase = c.phase := by
  simp [newRound, Phase.atInstant]

theorem RoundStart.again (h : c.RoundStart b l₀ began capacity) (hpos : 0 < capacity)
    (hf : (c.round b capacity).phase.failure? = none) :
    ((c.round b capacity).newRound (c.round b capacity).phase.now).RoundStart
      b l₀ began capacity := by
  have hsame := phase_newRound_now (c.round b capacity)
  have hend := h.round hpos
  exact ⟨h.lawful.round.newRound _, by rw [hsame]; exact hend.timed,
    Or.inr (by rw [hsame]; exact hend.started hf), by rw [hsame]; exact hf⟩

/-- The round at the next instant at which something is due. -/
theorem RoundStart.next {t : Nat} (h : c.RoundStart b l₀ began capacity) (hpos : 0 < capacity)
    (hf : (c.round b capacity).phase.failure? = none)
    (ha : (c.round b capacity).pace.again = false)
    (hdue : (c.round b capacity).phase.nextDue? = some t) :
    ((c.round b capacity).newRound t).RoundStart b l₀ began capacity := by
  have hend := h.round hpos
  obtain ⟨-, hwaits, -⟩ := hend.quiet hf ha
  exact ⟨h.lawful.round.newRound _,
    hend.timed.atInstant (Phase.now_le_of_nextDue? hdue) hwaits
      fun _ _ => Phase.nextDue?_le hdue,
    Or.inr (hend.started hf), hf⟩

/-- **A run ends with the end of a round.** -/
theorem RoundStart.run (h : c.RoundStart b l₀ began capacity) (hpos : 0 < capacity)
    (horizon : Nat) :
    ∃ d : Course σ, d.RoundEnd b l₀ began ∧
      LastRound horizon d (c.run b capacity horizon).1 (c.run b capacity horizon).2 := by
  obtain ⟨c', hc', hlast⟩ := run_lastRound horizon
    (fun hc hf => RoundStart.again hc hpos hf)
    (fun hc hf ha hdue _ => RoundStart.next hc hpos hf ha hdue) h
  exact ⟨_, hc'.round hpos, hlast⟩

theorem roundStart_begin {now : Nat} {first second : σ} {p : Phase σ} (pace : Pace)
    (h : Phase.begin? capacity now first second = some p) :
    ({ phase := p, pace := pace } : Course σ).RoundStart b (Side.pick first second) now
      capacity := by
  obtain rfl := Phase.eq_of_begin? h
  refine ⟨⟨by simp, by simp, by simp, by simp, by simp, by simp⟩, ?_, Or.inl rfl, rfl⟩
  rintro (_ | _) <;> exact ⟨[], [], .ready, rfl⟩

end Course

end BoardBench
