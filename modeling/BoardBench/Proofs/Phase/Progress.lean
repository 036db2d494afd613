import BoardBench.Phase

/-!
# Progress of a reader — its history, whatever the schedule

A reader only ever does one thing after another: it sends the start command, reads, hands an event
over, reads again. `Progress b l₀ rs es r` says that a reader that was given the link `l₀` can have
come to `r` in this way, with the reads `rs` behind it and the events `es` heard in them. The
relation has a constructor for each thing a reader can do and speaks of no schedule, so that a
statement about all schedules and a statement about the one in virtual time rest on the same facts.

The events of a reader are, at any time, those that it has delivered and the one that it still
holds. That is what `Phase.Tracked` says of both readers at once, and **every move of a phase keeps
it** (`Tracked.perform`).

The reads of a history are kept with how long each of them waited and what it brought, since nothing
less serves everybody: what a schedule does to time is told by the waits alone, what was taken off
the link by the outcomes, and a scripted link is known by how many reads there were. The instants at
which reads began are not part of it. They depend on the schedule, and a constructor leaves them
open where it would have to name one.

A reader that has failed or hangs has a history like any other. Only its last read differs: one that
failed is the last of the list, and one that never ends is in no list.
-/

set_option autoImplicit false

namespace BoardBench

variable {σ : Type} [Link σ]

/-- A read that came to its end: how long it waited, and with which outcome. -/
structure Reception where
  delayMs : Nat
  outcome : Except LinkError String

/-- How long some reads waited that followed one another. -/
def Reception.waited : List Reception → Nat
  | [] => 0
  | r :: rs => r.delayMs + waited rs

@[simp] theorem Reception.waited_nil : waited [] = 0 := rfl

@[simp] theorem Reception.waited_append (rs more : List Reception) :
    waited (rs ++ more) = waited rs + waited more := by
  induction rs with
  | nil => rw [List.nil_append, waited_nil, Nat.zero_add]
  | cons r rs ih => rw [List.cons_append, waited, waited, ih, Nat.add_assoc]

@[simp] theorem Reception.waited_singleton (r : Reception) : waited [r] = r.delayMs := rfl

/-- What can have become of the reader of a link: the reads that it made, and the events heard in
them. -/
inductive Progress (b : Bracket) (l₀ : σ) : List Reception → List Event → Reader σ → Prop
  | ready : Progress b l₀ [] [] ⟨l₀, .ready⟩
  | refused {e : LinkError} {l : σ} (hw : Link.write b.start l₀ = (.error e, l)) :
      Progress b l₀ [] [] ⟨l, .failed (.link e)⟩
  | started {l : σ} (t : Nat) (hw : Link.write b.start l₀ = (.ok (), l)) :
      Progress b l₀ [] [] ⟨l, .reading t⟩
  | hung {rs : List Reception} {es : List Event} {l : σ} {t d : Nat}
      (hp : Progress b l₀ rs es ⟨l, .reading t⟩) (hr : Link.read l = .never d) :
      Progress b l₀ rs es ⟨l, .hanging⟩
  | broken {rs : List Reception} {es : List Event} {l l' : σ} {t d : Nat} {e : LinkError}
      (hp : Progress b l₀ rs es ⟨l, .reading t⟩) (hr : Link.read l = .after d (.error e) l') :
      Progress b l₀ (rs ++ [⟨d, .error e⟩]) es ⟨l', .failed (.link e)⟩
  | skipped {rs : List Reception} {es : List Event} {l l' : σ} {t d : Nat} {line : String}
      (hp : Progress b l₀ rs es ⟨l, .reading t⟩) (hr : Link.read l = .after d (.ok line) l')
      (hh : Heard.ofLine b (Link.name l') line = .skipped) (t' : Nat) :
      Progress b l₀ (rs ++ [⟨d, .ok line⟩]) es ⟨l', .reading t'⟩
  | heard {rs : List Reception} {es : List Event} {l l' : σ} {t d : Nat} {line : String} {e : Event}
      (hp : Progress b l₀ rs es ⟨l, .reading t⟩) (hr : Link.read l = .after d (.ok line) l')
      (hh : Heard.ofLine b (Link.name l') line = .event e) :
      Progress b l₀ (rs ++ [⟨d, .ok line⟩]) (es ++ [e]) ⟨l', .holding e⟩
  | faulty {rs : List Reception} {es : List Event} {l l' : σ} {t d : Nat} {line : String}
      {e : BenchError} (hp : Progress b l₀ rs es ⟨l, .reading t⟩)
      (hr : Link.read l = .after d (.ok line) l')
      (hh : Heard.ofLine b (Link.name l') line = .fault e) :
      Progress b l₀ (rs ++ [⟨d, .ok line⟩]) es ⟨l', .failed e⟩
  | delivered {rs : List Reception} {es : List Event} {l : σ} {e : Event}
      (hp : Progress b l₀ rs es ⟨l, .holding e⟩) (he : e.payload ≠ b.stop) (t : Nat) :
      Progress b l₀ rs es ⟨l, .reading t⟩
  | stopped {rs : List Reception} {es : List Event} {l : σ} {e : Event}
      (hp : Progress b l₀ rs es ⟨l, .holding e⟩) (he : e.payload = b.stop) :
      Progress b l₀ rs es ⟨l, .finished⟩

/-- The event that a reader has heard and not delivered. -/
def Reader.held (r : Reader σ) : List Event :=
  match r.stage with
  | .holding e => [e]
  | _ => []

/-! ## What a reader does is progress -/

section Steps

variable {b : Bracket} {l₀ : σ} {rs : List Reception} {es : List Event} {r : Reader σ}

theorem Progress.start (hp : Progress b l₀ rs es r) (hs : r.stage = .ready) (now : Nat) :
    Progress b l₀ rs es (r.start b now) ∧ (r.start b now).held = [] := by
  cases hp <;> simp only [reduceCtorEq] at hs
  unfold Reader.start
  split
  · rename_i hw
    exact ⟨.started now hw, rfl⟩
  · rename_i hw
    exact ⟨.refused hw, rfl⟩

/-- A read that never ends leaves no trace. Any other is one more read behind the reader, and it may
have brought an event. -/
theorem Progress.receive {t : Nat} (hp : Progress b l₀ rs es r) (hs : r.stage = .reading t)
    (now : Nat) :
    ∃ more, Progress b l₀ (rs ++ more) (es ++ (r.receive b now).held) (r.receive b now) ∧
      (more = [] ∧ (r.receive b now).stage = .hanging ∨
        Reception.waited more = (Link.read r.link).delayMs ∧
          (r.receive b now).stage ≠ .hanging) := by
  obtain ⟨l, stage⟩ := r
  cases hs
  unfold Reader.receive
  split
  · rename_i d hr
    exact ⟨[], by simpa [Reader.held] using hp.hung hr, Or.inl ⟨rfl, rfl⟩⟩
  · rename_i d e l' hr
    refine ⟨[⟨d, .error e⟩], by simpa [Reader.held] using hp.broken hr, Or.inr ?_⟩
    simp [Reception.waited, Reading.delayMs, hr]
  · rename_i d line l' hr
    refine ⟨[⟨d, .ok line⟩], ?_⟩
    split
    · rename_i hh
      refine ⟨by simpa [Reader.held] using hp.skipped hr hh now, Or.inr ?_⟩
      simp [Reception.waited, Reading.delayMs, hr]
    · rename_i e hh
      refine ⟨by simpa [Reader.held] using hp.heard hr hh, Or.inr ?_⟩
      simp [Reception.waited, Reading.delayMs, hr]
    · rename_i e hh
      refine ⟨by simpa [Reader.held] using hp.faulty hr hh, Or.inr ?_⟩
      simp [Reception.waited, Reading.delayMs, hr]

theorem Progress.deliver {e : Event} (hp : Progress b l₀ rs es r) (hs : r.stage = .holding e)
    (now : Nat) :
    Progress b l₀ rs es ⟨r.link, Reader.afterDelivery b now e⟩ ∧
      (⟨r.link, Reader.afterDelivery b now e⟩ : Reader σ).held = [] := by
  obtain ⟨l, stage⟩ := r
  cases hs
  unfold Reader.afterDelivery
  split
  · rename_i he
    exact ⟨hp.stopped he, rfl⟩
  · rename_i he
    exact ⟨hp.delivered he now, rfl⟩

end Steps

/-! ## Both readers of a phase -/

namespace Phase

omit [Link σ] in
/-- In a phase that has just begun nobody has started, and nothing is merged or queued. -/
theorem eq_of_begin? {capacity now : Nat} {first second : σ} {p : Phase σ}
    (h : begin? capacity now first second = some p) :
    p = { first := ⟨first, .ready⟩, second := ⟨second, .ready⟩, now := now } := by
  unfold begin? at h
  split at h
  · exact (Option.some.inj h).symm
  · cases h

omit [Link σ] in
/-- What is so of both readers stays so if one of them is replaced by a reader of which it is so. -/
theorem forall_setReader {p : Phase σ} {P : Side → Reader σ → Prop} (h : ∀ t, P t (p.reader t))
    {s : Side} {r : Reader σ} (hr : P s r) (t : Side) : P t ((p.setReader r s).reader t) := by
  by_cases hts : t = s
  · subst hts
    rw [reader_setReader_self]
    exact hr
  · rw [reader_setReader_of_ne p r hts]
    exact h t

/-- The events that the reader of a side has delivered, merged or not, in order. -/
def delivered (p : Phase σ) (s : Side) : List Event :=
  ((p.log.toList ++ p.queue).filter (·.1 == s)).map (·.2)

/-- Each reader got where it is by progress from its link, and the events that it heard are those
that it delivered and the one that it holds. -/
def Tracked (b : Bracket) (l₀ : Side → σ) (p : Phase σ) : Prop :=
  ∀ s, ∃ rs, Progress b (l₀ s) rs (p.delivered s ++ (p.reader s).held) (p.reader s)

omit [Link σ] in
theorem delivered_of_eq {p q : Phase σ} (hl : q.log = p.log) (hq : q.queue = p.queue) (s : Side) :
    q.delivered s = p.delivered s := by
  simp [delivered, hl, hq]

section Moves

variable {b : Bracket} {l₀ : Side → σ} {capacity : Nat} {p q : Phase σ}

/-- A move of one reader that delivers nothing tracks if that reader does. -/
theorem Tracked.setReader (h : p.Tracked b l₀) {s : Side} {r : Reader σ} {rs : List Reception}
    (hr : Progress b (l₀ s) rs (p.delivered s ++ r.held) r) : (p.setReader r s).Tracked b l₀ := by
  intro t
  rw [delivered_of_eq (p.log_setReader r s) (p.queue_setReader r s)]
  exact forall_setReader
    (P := fun t r => ∃ rs, Progress b (l₀ t) rs (p.delivered t ++ r.held) r) h ⟨rs, hr⟩ t

theorem Tracked.start {s : Side} (h : p.Tracked b l₀) (hs : (p.reader s).stage = .ready) :
    (p.setReader ((p.reader s).start b p.now) s).Tracked b l₀ := by
  obtain ⟨rs, hp⟩ := h s
  have hheld : (p.reader s).held = [] := by simp [Reader.held, hs]
  obtain ⟨hstart, hnone⟩ := hp.start hs p.now
  rw [hheld, ← hnone] at hstart
  exact h.setReader hstart

theorem Tracked.receive {s : Side} {since : Nat} (h : p.Tracked b l₀)
    (hs : (p.reader s).stage = .reading since) :
    (p.setReader ((p.reader s).receive b p.now) s).Tracked b l₀ := by
  obtain ⟨rs, hp⟩ := h s
  have hheld : (p.reader s).held = [] := by simp [Reader.held, hs]
  rw [hheld, List.append_nil] at hp
  obtain ⟨more, hmore, -⟩ := hp.receive hs p.now
  exact h.setReader hmore

theorem Tracked.deliver {s : Side} {e : Event} (h : p.Tracked b l₀)
    (hs : (p.reader s).stage = .holding e) :
    ((p.setReader ⟨(p.reader s).link, Reader.afterDelivery b p.now e⟩ s).enqueue (s, e)).Tracked
      b l₀ := by
  intro t
  rw [reader_enqueue]
  obtain ⟨rs, hp⟩ := h t
  by_cases hts : t = s
  · subst hts
    obtain ⟨hd, hnone⟩ := hp.deliver hs p.now
    refine ⟨rs, ?_⟩
    -- the event moves from the reader's hand to the end of what it delivered
    have hheld : (p.reader t).held = [e] := by simp [Reader.held, hs]
    have hq : ∀ r : Reader σ, ((p.setReader r t).enqueue (t, e)).delivered t =
        p.delivered t ++ [e] := by
      intro r
      simp [delivered, ← List.append_assoc]
    rw [hq, reader_setReader_self, hnone, List.append_nil, ← hheld]
    exact hd
  · -- what the other side delivered stays what it is
    have hne : s ≠ t := fun h => hts h.symm
    have hq : ∀ r : Reader σ, ((p.setReader r s).enqueue (s, e)).delivered t =
        p.delivered t := by
      intro r
      simp [delivered, ← List.append_assoc, hne]
    rw [hq, reader_setReader_of_ne _ _ hts]
    exact ⟨rs, hp⟩

theorem Tracked.merge {x : Side × Event} {rest : List (Side × Event)} (h : p.Tracked b l₀)
    (hq : p.queue = x :: rest) : (p.mergeFront x rest).Tracked b l₀ := by
  intro s
  -- the front of the queue goes to the end of the log, and both count as delivered
  have hd : (p.mergeFront x rest).delivered s = p.delivered s := by
    simp [delivered, hq]
  rw [hd, reader_mergeFront]
  exact h s

/-- **Every move keeps track**, whichever it is. -/
theorem Tracked.perform {m : Move} (h : p.Tracked b l₀)
    (hm : p.perform? b capacity m = some q) : q.Tracked b l₀ := by
  cases moves_of_perform hm with
  | start hs => exact h.start hs
  | receive hs => exact h.receive hs
  | deliver hs _ => exact h.deliver hs
  | merge hq => exact h.merge hq
  | wait _ =>
    intro s
    have hr : ∀ instant, Phase.reader { p with now := instant } s = p.reader s := fun _ => by
      cases s <;> rfl
    rw [hr]
    exact h s

end Moves

end Phase

end BoardBench
