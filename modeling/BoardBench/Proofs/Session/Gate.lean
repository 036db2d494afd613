import BoardBench.Link.Scripted
import BoardBench.Session

/-!
# The idle gate — a patient bench gets through it

A device that is busy for a while is asked again. `Patient limit n bs` says of the batches that a
device answers with that they let the bench through `n` gates, one after the other, with fewer than
`limit` busy answers at each; noise in front of an answer does not matter. The last batch stays for
good, so that a device that answers "idle" and nothing else is `Patient` for any number of gates.

**Both links are then asked until they are idle** (`Session.ensureIdle_done`), and all that has
changed on them are the answers used up: the gate leaves no line behind, and it does not touch the
batches of another command.

The conditions are on what a device answers with, batch by batch, and not on a run of the gate. A
gate is one of many in a test, and the next one finds what this one left of the replies. So the
batches of the question are what has to be followed (`Replies.afterFirst`), and `Patient` is by
recursion on the gates that are still to come. Of everything else `SameBut` says that it is the
same, which is all that the modules about whole tests need to know of a gate.

Links with a delay are not considered here. What they would add is time, and the modules on waits
have that for any link.
-/

set_option autoImplicit false

namespace BoardBench

/-! ## Batches -/

namespace Replies

theorem batches_map {α : Type} {command : α → String} {f : α → List (List String)} {xs : List α}
    (hnodup : (xs.map command).Nodup) {x : α} (hx : x ∈ xs) :
    batches (command x) (xs.map fun x => (command x, f x)) = f x := by
  induction xs with
  | nil => cases hx
  | cons y ys ih =>
    obtain ⟨hnot, hrest⟩ := List.nodup_cons.1 hnodup
    rcases List.mem_cons.1 hx with rfl | hx
    · simp [batches]
    · have hne : command y ≠ command x := by
        intro heq
        exact hnot (heq ▸ List.mem_map_of_mem hx)
      rw [List.map_cons, batches, if_neg hne]
      exact ih hrest hx

theorem next_fst (command : String) (r : Replies) :
    (r.next command).1 = (r.batches command).headD [] := by
  induction r with
  | nil => rfl
  | cons p rest ih =>
    obtain ⟨c, bs⟩ := p
    by_cases h : c = command
    · simp [next, batches, h]
    · simp [next, batches, h, ih]

/-- Giving a batch for one command leaves the batches of the others alone. -/
theorem batches_next_of_ne {c command : String} (h : c ≠ command) (r : Replies) :
    (r.next command).2.batches c = r.batches c := by
  induction r with
  | nil => rfl
  | cons p rest ih =>
    obtain ⟨d, bs⟩ := p
    by_cases hd : d = command
    · subst hd
      simp [next, batches, Ne.symm h]
    · rw [next, if_neg hd]
      by_cases hdc : d = c
      · simp [batches, hdc]
      · simp [batches, hdc, ih]

end Replies

/-- Lines that amount to an answer: noise, and then a line that gives it. -/
def IdleReply.Batch (r : IdleReply) (lines : List String) : Prop :=
  ∃ noise last, lines = noise ++ [last] ∧ (∀ x ∈ noise, IdleReply.ofLine? x = none) ∧
    IdleReply.ofLine? last = some r

/-- The batches let the bench through some gates, with fewer busy answers at each than it takes to
give up. -/
def Patient (limit : Nat) : Nat → List (List String) → Prop
  | 0, _ => True
  | n + 1, bs => ∃ busy idle rest, bs = busy ++ idle :: rest ∧ busy.length < limit ∧
      (∀ lines ∈ busy, IdleReply.busy.Batch lines) ∧ IdleReply.idle.Batch idle ∧
      Patient limit n (Replies.afterFirst (idle :: rest))

/-- A device that answers "idle" whenever it is asked lets the bench through any number of gates. -/
theorem patient_of_idle {limit : Nat} {lines : List String} (hpos : 0 < limit)
    (h : IdleReply.idle.Batch lines) (n : Nat) : Patient limit n [lines] := by
  induction n with
  | zero => trivial
  | succ n ih => exact ⟨[], lines, [], rfl, hpos, by simp, h, ih⟩

/-! ## One link -/

namespace ScriptedLink

/-- The link has no delay and nothing to read. -/
structure Quiet (l : ScriptedLink) : Prop where
  instant : l.delayMs = 0
  drained : l.pending = []

/-- The links differ at most in what is left of the answers to a command, and in what was
written. -/
structure SameBut (command : String) (l l' : ScriptedLink) : Prop where
  quiet : l'.Quiet
  replies : ∀ c, c ≠ command → l'.replies.batches c = l.replies.batches c

end ScriptedLink

namespace IdleGate

open ScriptedLink

variable {gate : IdleGate} {l : ScriptedLink} {c : Clock}

section Unfolding

variable {σ : Type} [Link σ] {limit : Limit} {link rest : σ} {c₁ c₂ : Clock}

theorem awaitReply_of_done {line : String}
    (h : Link.readBy limit link c₁ = ⟨.done line, rest, c₂⟩) :
    awaitReply limit link c₁ =
      match IdleReply.ofLine? line with
      | some reply => ⟨.done reply, rest, c₂⟩
      | none => awaitReply limit rest c₂ := by
  rw [awaitReply]
  split
  · rename_i h'
    rw [h] at h'
    cases h'
    rfl
  · rename_i h'
    rw [h] at h'
    cases h'
  · rename_i h'
    rw [h] at h'
    cases h'

theorem awaitReply_of_failed {e : LinkError}
    (h : Link.readBy limit link c₁ = ⟨.failed e, rest, c₂⟩) :
    awaitReply limit link c₁ =
      if e.isRejectedLine then awaitReply limit rest c₂ else ⟨.failed (.link e), rest, c₂⟩ := by
  rw [awaitReply]
  split
  · rename_i h'
    rw [h] at h'
    cases h'
  · rename_i h'
    rw [h] at h'
    cases h'
    split
    · rfl
    · rfl
  · rename_i h'
    rw [h] at h'
    cases h'

theorem awaitReply_of_stalled (h : Link.readBy limit link c₁ = ⟨.stalled, rest, c₂⟩) :
    awaitReply limit link c₁ = ⟨.stalled, rest, c₂⟩ := by
  rw [awaitReply]
  split
  · rename_i h'
    rw [h] at h'
    cases h'
  · rename_i h'
    rw [h] at h'
    cases h'
  · rename_i h'
    rw [h] at h'
    cases h'
    rfl

end Unfolding

theorem awaitReply_cons {text : String} {rest : List Incoming} (hd : l.delayMs = 0)
    (hp : l.pending = .line text :: rest) :
    awaitReply none l c =
      match IdleReply.ofLine? text with
      | some reply => ⟨.done reply, { l with pending := rest }, c⟩
      | none => awaitReply none { l with pending := rest } c := by
  have hread : Link.readBy none l c = ⟨.done text, { l with pending := rest }, c⟩ := by
    simp [Link.readBy, Link.read, ScriptedLink.read, hp, hd]
  rw [awaitReply_of_done hread]

/-- A batch is read up to its last line. -/
theorem awaitReply_batch {r : IdleReply} {lines : List String} (hd : l.delayMs = 0)
    (hp : l.pending = lines.map .line) (hb : r.Batch lines) :
    awaitReply none l c = ⟨.done r, { l with pending := [] }, c⟩ := by
  obtain ⟨noise, last, rfl, hnoise, hlast⟩ := hb
  induction noise generalizing l with
  | nil =>
    rw [awaitReply_cons hd hp, hlast]
    rfl
  | cons x noise ih =>
    rw [awaitReply_cons hd hp, hnoise x List.mem_cons_self]
    exact ih hd rfl fun y hy => hnoise y (List.mem_cons_of_mem _ hy)

/-- One question to a quiet device that has an answer: afterwards it is as quiet as before. -/
theorem awaitReply_write {r : IdleReply} {lines : List String} {bs : List (List String)}
    (hq : l.Quiet) (hbs : l.replies.batches idleCommand = lines :: bs) (hb : r.Batch lines) :
    ∃ l', awaitReply none (l.write idleCommand) c = ⟨.done r, l', c⟩ ∧ SameBut idleCommand l l' ∧
      l'.replies.batches idleCommand = Replies.afterFirst (lines :: bs) := by
  have hlines : (l.replies.next idleCommand).1 = lines := by
    rw [Replies.next_fst, hbs]
    rfl
  have hp : (l.write idleCommand).pending = lines.map .line := by
    show l.pending ++ (l.replies.next idleCommand).1.map .line = _
    rw [hq.drained, hlines, List.nil_append]
  refine ⟨_, awaitReply_batch hq.instant hp hb, ⟨⟨hq.instant, rfl⟩, fun d hd => ?_⟩, ?_⟩
  · exact Replies.batches_next_of_ne hd _
  · rw [← hbs]
    exact Replies.batches_next _ _

theorem pause_none (c : Clock) (ms : Nat) : ∃ c', c.pause none ms = some c' := by
  unfold Clock.pause
  split
  · exact ⟨_, rfl⟩
  · exact ⟨_, if_pos ⟨rfl, rfl⟩⟩

/-- The device is asked until its busy answers are used up. -/
theorem ask_done (gate : IdleGate) (asked : Nat) {busy : List (List String)} {idle : List String}
    {rest : List (List String)} {left : Nat} (hq : l.Quiet)
    (hbs : l.replies.batches idleCommand = busy ++ idle :: rest) (hleft : busy.length < left)
    (hbusy : ∀ lines ∈ busy, IdleReply.busy.Batch lines) (hidle : IdleReply.idle.Batch idle) :
    ∃ l' c', gate.ask none left asked l c = ⟨.done (asked + busy.length + 1), l', c'⟩ ∧
      SameBut idleCommand l l' ∧
      l'.replies.batches idleCommand = Replies.afterFirst (idle :: rest) := by
  induction busy generalizing left asked l c with
  | nil =>
    obtain ⟨left, rfl⟩ := Nat.exists_eq_succ_of_ne_zero (Nat.ne_of_gt hleft)
    obtain ⟨l', hawait, hsame, hafter⟩ := awaitReply_write (c := c) hq hbs hidle
    have hwrite : Link.write idleCommand l = (.ok (), l.write idleCommand) := rfl
    refine ⟨l', c, ?_, hsame, hafter⟩
    simp only [ask_succ, hwrite, hawait]
    rfl
  | cons lines busy ih =>
    obtain ⟨left, rfl⟩ := Nat.exists_eq_succ_of_ne_zero (Nat.ne_of_gt (Nat.zero_lt_of_lt hleft))
    rw [List.length_cons, Nat.succ_lt_succ_iff] at hleft
    obtain ⟨l', hawait, hsame, hafter⟩ :=
      awaitReply_write (c := c) hq hbs (hbusy lines List.mem_cons_self)
    have hwrite : Link.write idleCommand l = (.ok (), l.write idleCommand) := rfl
    obtain ⟨c', hpause⟩ := pause_none c gate.retryDelayMs
    -- an idle batch is still to come, so this was not the last batch
    have hbs' : l'.replies.batches idleCommand = busy ++ idle :: rest := by
      rw [hafter]
      cases busy <;> rfl
    obtain ⟨l'', c'', hask, hsame', hafter'⟩ :=
      ih (asked + 1) (c := c') hsame.quiet hbs' hleft
        fun y hy => hbusy y (List.mem_cons_of_mem _ hy)
    refine ⟨l'', c'', ?_, ⟨hsame'.quiet, fun d hd => ?_⟩, hafter'⟩
    · have hmore : left ≠ 0 := Nat.ne_of_gt (Nat.zero_lt_of_lt hleft)
      simp only [ask_succ, hwrite, hawait, if_neg hmore, hpause, hask]
      rw [List.length_cons]
      congr 2
      omega
    · rw [hsame'.replies d hd, hsame.replies d hd]

end IdleGate

/-! ## Both links -/

namespace Session

open ScriptedLink

variable {s : Session ScriptedLink} {gate : IdleGate} {n : Nat}

theorem link_after {σ ε α : Type} (s : Session σ) (r : Settled σ ε α) (side t : Side) :
    (s.after r side).link t = if t = side then r.link else s.link t := by
  cases side <;> cases t <;> rfl

/-- A gate passed on one link: the other one is as it was. -/
theorem waitUntilIdle_done {side : Side} (hq : (s.link side).Quiet)
    (hp : Patient gate.maxAttempts (n + 1) ((s.link side).replies.batches idleCommand)) :
    ∃ k s', s.waitUntilIdle gate none side = (.done k, s') ∧
      SameBut idleCommand (s.link side) (s'.link side) ∧
      Patient gate.maxAttempts n ((s'.link side).replies.batches idleCommand) ∧
      ∀ t, t ≠ side → s'.link t = s.link t := by
  obtain ⟨busy, idle, rest, hbs, hlt, hbusy, hidle, hnext⟩ := hp
  obtain ⟨l', c', hask, hsame, hafter⟩ :=
    IdleGate.ask_done gate 0 (c := s.clock) hq hbs hlt hbusy hidle
  have hrun : s.waitUntilIdle gate none side = (.done (0 + busy.length + 1), s.after
      (⟨.done (0 + busy.length + 1), l', c'⟩ : Settled ScriptedLink BenchError Nat) side) := by
    simp only [waitUntilIdle, IdleGate.waitUntilIdle, hask]
  refine ⟨_, _, hrun, ?_, ?_, ?_⟩
  · rw [link_after, if_pos rfl]
    exact hsame
  · rw [link_after, if_pos rfl, hafter]
    exact hnext
  · intro t ht
    rw [link_after, if_neg ht]

/-- **Both devices are asked until they are idle**, the second one after the first. -/
theorem ensureIdle_done (gate : IdleGate) (hq : ∀ side, (s.link side).Quiet)
    (hp : ∀ side, Patient gate.maxAttempts (n + 1) ((s.link side).replies.batches idleCommand)) :
    ∃ s', s.ensureIdle gate none = (.done (), s') ∧
      ∀ side, SameBut idleCommand (s.link side) (s'.link side) ∧
        Patient gate.maxAttempts n ((s'.link side).replies.batches idleCommand) := by
  obtain ⟨k, s₁, hfirst, hsame₁, hnext₁, hkeep₁⟩ := waitUntilIdle_done (hq .first) (hp .first)
  have hother : s₁.link .second = s.link .second := hkeep₁ .second (by decide)
  obtain ⟨m, s₂, hsecond, hsame₂, hnext₂, hkeep₂⟩ :=
    waitUntilIdle_done (s := s₁) (by rw [hother]; exact hq .second)
      (by rw [hother]; exact hp .second)
  have hother' : s₂.link .first = s₁.link .first := hkeep₂ .first (by decide)
  refine ⟨s₂, ?_, ?_⟩
  · simp only [ensureIdle, hfirst, hsecond]
  · rintro (_ | _)
    · rw [hother']
      exact ⟨hsame₁, hnext₁⟩
    · rw [hother] at hsame₂
      exact ⟨hsame₂, hnext₂⟩

end Session

end BoardBench
