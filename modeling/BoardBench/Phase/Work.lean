import BoardBench.Phase

/-!
# The work that is left in a phase

Reads, deliveries and merges use up work: after each of them the phase is `Lighter`. Time alone
takes no work off, but fewer reads are upcoming when the next due one has come. This is what bounds
every run of a phase.

A run has to be shown to end although its links may go on for as long as their backlog lasts, and
hang after that. The order is by readers that have yet to start, then by work; time passes in
between without using it up, and is bounded on its own, as each reader has one read under way at
most.
-/

set_option autoImplicit false

namespace BoardBench

namespace Reader

variable {σ : Type} [Link σ]

/-- A bound on the moves that a started reader still causes, merges included. -/
def work (r : Reader σ) : Nat :=
  match r.stage with
  | .ready => 0
  | .reading _ => 3 * Link.backlog r.link + 1
  | .hanging => 0
  | .holding _ => 3 * Link.backlog r.link + 3
  | .finished => 0
  | .failed _ => 0

/-- One for a reader that has yet to start. -/
def unstarted (r : Reader σ) : Nat :=
  match r.stage with
  | .ready => 1
  | _ => 0

/-- One for a reader whose read is due after an instant. -/
def upcoming (now : Nat) (r : Reader σ) : Nat :=
  match r.due? with
  | some t => if now < t then 1 else 0
  | none => 0

theorem unstarted_start (b : Bracket) (now : Nat) (r : Reader σ) :
    (r.start b now).unstarted = 0 := by
  unfold start
  split <;> rfl

theorem work_receive_lt {b : Bracket} {t since : Nat} {r : Reader σ}
    (hs : r.stage = .reading since) :
    (r.receive b t).work < r.work ∧ (r.receive b t).unstarted = r.unstarted := by
  unfold receive
  split
  · simp [work, unstarted, hs]
  · simp [work, unstarted, hs]
  · rename_i line rest hr
    have hb : Link.backlog rest < Link.backlog r.link := Link.backlog_lt hr rfl
    split <;> simp [work, unstarted, hs] <;> omega

theorem work_afterDelivery_lt {b : Bracket} {t : Nat} {e : Event} {r : Reader σ}
    (hs : r.stage = .holding e) :
    (⟨r.link, afterDelivery b t e⟩ : Reader σ).work + 1 < r.work ∧
      (⟨r.link, afterDelivery b t e⟩ : Reader σ).unstarted = r.unstarted := by
  unfold afterDelivery
  split <;> simp [work, unstarted, hs]

theorem upcoming_le_of_le {now t : Nat} (h : now ≤ t) (r : Reader σ) :
    r.upcoming t ≤ r.upcoming now := by
  unfold upcoming
  split
  · split <;> split <;> omega
  · exact Nat.le_refl _

theorem upcoming_lt_of_due {now t : Nat} {r : Reader σ} (hd : r.due? = some t) (h : now < t) :
    r.upcoming t < r.upcoming now := by
  simp [upcoming, hd, h]

end Reader

namespace Phase

variable {σ : Type} [Link σ]

/-! ## Moves use up work -/

/-- A bound on the moves that are left once both readers have started. -/
def work (p : Phase σ) : Nat :=
  p.first.work + p.second.work + p.queue.length

/-- The number of readers that have yet to start. -/
def unstarted (p : Phase σ) : Nat :=
  p.first.unstarted + p.second.unstarted

/-- The number of readers whose reads are due later. -/
def upcoming (p : Phase σ) : Nat :=
  p.first.upcoming p.now + p.second.upcoming p.now

/-- Less is left to do: a reader less has to start, or as many do and less work is left. -/
def Lighter (q p : Phase σ) : Prop :=
  q.unstarted < p.unstarted ∨ q.unstarted = p.unstarted ∧ q.work < p.work

theorem Lighter.trans {p q r : Phase σ} (h : Lighter r q) (g : Lighter q p) : Lighter r p := by
  simp only [Lighter] at *
  omega

theorem lighter_start {b : Bracket} {capacity : Nat} {p q : Phase σ} {s : Side}
    (h : p.perform? b capacity (.start s) = some q) : Lighter q p := by
  cases moves_of_perform h with
  | start hs =>
    have h0 := Reader.unstarted_start b p.now (p.reader s)
    have h1 : (p.reader s).unstarted = 1 := by simp [Reader.unstarted, hs]
    cases s <;> simp only [reader, setReader, Lighter, unstarted] at * <;> omega

theorem lighter_receive {b : Bracket} {capacity : Nat} {p q : Phase σ} {s : Side}
    (h : p.perform? b capacity (.receive s) = some q) : Lighter q p := by
  cases moves_of_perform h with
  | receive hs =>
    have := Reader.work_receive_lt (b := b) (t := p.now) hs
    cases s <;> simp only [reader, setReader, Lighter, unstarted, work] at * <;> omega

theorem lighter_deliver {b : Bracket} {capacity : Nat} {p q : Phase σ} {s : Side}
    (h : p.perform? b capacity (.deliver s) = some q) : Lighter q p := by
  cases moves_of_perform h with
  | deliver hs _ =>
    have := Reader.work_afterDelivery_lt (b := b) (t := p.now) hs
    cases s <;>
      simp only [reader, setReader, enqueue, Lighter, unstarted, work, List.length_append,
        List.length_singleton] at * <;> omega

theorem lighter_merge {b : Bracket} {capacity : Nat} {p q : Phase σ}
    (h : p.perform? b capacity .merge = some q) : Lighter q p := by
  cases moves_of_perform h with
  | merge hq => simp [mergeFront, Lighter, unstarted, work, hq]

/-! ## Time -/

def atInstant (p : Phase σ) (instant : Nat) : Phase σ :=
  { p with now := max p.now instant }

/-- The next instant at which a read is due. -/
def nextDue? (p : Phase σ) : Option Nat :=
  match p.first.due?.filter (p.now < ·), p.second.due?.filter (p.now < ·) with
  | some t, some u => some (min t u)
  | some t, none => some t
  | none, u => u

theorem upcoming_nextDue_lt {p : Phase σ} {t : Nat} (h : p.nextDue? = some t) :
    (p.atInstant t).upcoming < p.upcoming := by
  have key : ∀ {r : Reader σ}, r.due?.filter (p.now < ·) = some t →
      p.now < t ∧ r.upcoming t < r.upcoming p.now := by
    intro r hr
    obtain ⟨hd, hn⟩ := Option.filter_eq_some_iff.1 hr
    exact ⟨by simpa using hn, Reader.upcoming_lt_of_due hd (by simpa using hn)⟩
  suffices hs : p.now < t ∧ p.first.upcoming t + p.second.upcoming t <
      p.first.upcoming p.now + p.second.upcoming p.now by
    simpa [upcoming, atInstant, Nat.max_eq_right (Nat.le_of_lt hs.1)] using hs.2
  unfold nextDue? at h
  split at h
  · rename_i u v hu hv
    cases h
    rcases Nat.le_total u v with huv | huv
    · rw [Nat.min_eq_left huv] at key ⊢
      have h1 := key hu
      have h2 := Reader.upcoming_le_of_le (Nat.le_of_lt h1.1) p.second
      omega
    · rw [Nat.min_eq_right huv] at key ⊢
      have h1 := key hv
      have h2 := Reader.upcoming_le_of_le (Nat.le_of_lt h1.1) p.first
      omega
  · rename_i hu hv
    have h1 := key (hu.trans h)
    have h2 := Reader.upcoming_le_of_le (Nat.le_of_lt h1.1) p.second
    omega
  · have h1 := key h
    have h2 := Reader.upcoming_le_of_le (Nat.le_of_lt h1.1) p.first
    omega

end Phase

end BoardBench
