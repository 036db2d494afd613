import BoardBench.Error
import BoardBench.Link

/-!
# The idle gate

Before a phase starts, a device is asked whether it is idle. Its answer is the next line that says
`idle true` or `idle false`; whatever else it sends meanwhile is *noise* and passed over. A busy
device is asked again after a pause, up to a number of attempts.

A gate is one program, `inquire`, over what it takes to ask a device (`Inquiry`), because it is run
in two worlds: in virtual time, and on a machine. In virtual time it is a `Wait`, which its caller
may give up in the middle of it. The link and the clock then stay as it left them, so that to be
given up is not one more error. **What a question comes to there is said once**
(`ask_succ`), and no proof opens the program again.
-/

set_option autoImplicit false

namespace BoardBench

/-- What a device answers to the question. -/
inductive IdleReply where
  | idle
  | busy
deriving Repr, DecidableEq

/-- The command that asks a device whether it is idle. -/
def idleCommand : String := "idle"

/-- The answer that a line gives; `none` for noise. The echo of the command is noise, whatever
else it could be read as, and so are empty lines, banners and malformed lines. -/
def IdleReply.ofLine? (line : String) : Option IdleReply :=
  if line.isEmpty || line == idleCommand then none
  else
    match Line.parse line with
    | .ok (.event e) =>
      if Text.foldCase e.payload = "idle true".toList then some .idle
      else if Text.foldCase e.payload = "idle false".toList then some .busy
      else none
    | _ => none

/-- How often a device is asked, and how long the pause between two questions is. -/
structure IdleGate where
  maxAttempts : Nat
  retryDelayMs : Nat
deriving Repr, DecidableEq

namespace IdleGate

/-- The gate of some settings. A device is asked at least once. -/
def ofSettings (s : IdleSettings) : IdleGate :=
  { maxAttempts := max 1 s.maxAttempts, retryDelayMs := s.retryDelayMs }

variable {σ : Type} [Link σ]

/-- Reads up to the next answer. Lines that the link rejects are noise; its other errors end the
wait. -/
def awaitReply (limit : Limit) (link : σ) (c : Clock) : Settled σ BenchError IdleReply :=
  match _h : Link.readBy limit link c with
  | ⟨.done line, rest, c⟩ =>
    match IdleReply.ofLine? line with
    | some reply => ⟨.done reply, rest, c⟩
    | none => awaitReply limit rest c
  | ⟨.failed e, rest, c⟩ =>
    if _he : e.isRejectedLine then awaitReply limit rest c else ⟨.failed (.link e), rest, c⟩
  | ⟨.stalled, rest, c⟩ => ⟨.stalled, rest, c⟩
termination_by Link.backlog link
decreasing_by
  · simpa [_h] using Link.backlog_readBy_done (congrArg Settled.ending _h)
  · simpa [_h] using Link.backlog_readBy_failed (congrArg Settled.ending _h) _he

end IdleGate

/-! ## The program -/

/-- What it takes to ask a device. -/
structure Inquiry (m : Type → Type) where
  /-- The port name of the device. -/
  name : m String
  /-- Sends the command. -/
  question : m (Except BenchError Unit)
  /-- Waits for the next answer. -/
  reply : m (Except BenchError IdleReply)
  /-- Lets some milliseconds pass. -/
  pause : Nat → m Unit

/-- Asks a device up to `left` more times, after it was asked `asked` times, and answers at which
attempt it was idle. -/
def IdleGate.inquire {m : Type → Type} [Monad m] (gate : IdleGate) (q : Inquiry m) :
    (left asked : Nat) → m (Except BenchError Nat)
  | 0, _ => do
    let name ← q.name
    pure (.error (.notIdle name gate.maxAttempts))
  | left + 1, asked => do
    match ← q.question with
    | .error e => pure (.error e)
    | .ok () =>
      match ← q.reply with
      | .error e => pure (.error e)
      | .ok .idle => pure (.ok (asked + 1))
      | .ok .busy =>
        if left = 0 then gate.inquire q left (asked + 1)
        else do
          q.pause gate.retryDelayMs
          gate.inquire q left (asked + 1)

/-! ## In virtual time -/

/-- A wait on a link in virtual time, which ends early if its caller gives it up. -/
abbrev Wait (σ : Type) := OptionT (StateM (σ × Clock))

namespace Wait

variable {σ α β ε : Type}

/-- A step of a wait. -/
def ofSettled (work : σ → Clock → Settled σ ε α) : Wait σ (Except ε α) :=
  OptionT.mk fun (link, c) =>
    match work link c with
    | ⟨.done a, link, c⟩ => (some (.ok a), link, c)
    | ⟨.failed e, link, c⟩ => (some (.error e), link, c)
    | ⟨.stalled, link, c⟩ => (none, link, c)

/-- A whole wait, from some state of the link and the clock on. -/
def settle (w : Wait σ (Except ε α)) (link : σ) (c : Clock) : Settled σ ε α :=
  match w.run (link, c) with
  | (some (.ok a), link, c) => ⟨.done a, link, c⟩
  | (some (.error e), link, c) => ⟨.failed e, link, c⟩
  | (none, link, c) => ⟨.stalled, link, c⟩

/-- What is not given up goes on. -/
theorem settle_bind (w : Wait σ β) (f : β → Wait σ (Except ε α)) (link : σ) (c : Clock) :
    (w >>= f).settle link c =
      match w.run (link, c) with
      | (some b, link, c) => (f b).settle link c
      | (none, link, c) => ⟨.stalled, link, c⟩ := by
  have hrun : (w >>= f).run (link, c) =
      match w.run (link, c) with
      | (some b, s) => (f b).run s
      | (none, s) => (none, s) := by
    change (match w.run (link, c) with
      | (b?, s) => (match b? with | some b => (f b).run | none => pure none : StateM _ _) s) = _
    rcases w.run (link, c) with ⟨_ | b, s⟩ <;> rfl
  rw [settle, hrun]
  rcases w.run (link, c) with ⟨_ | b, link, c⟩ <;> rfl

/-- A step, and what follows it. -/
theorem settle_ofSettled_bind (work : σ → Clock → Settled σ ε β)
    (f : Except ε β → Wait σ (Except ε α)) (link : σ) (c : Clock) :
    (ofSettled work >>= f).settle link c =
      match work link c with
      | ⟨.done b, link, c⟩ => (f (.ok b)).settle link c
      | ⟨.failed e, link, c⟩ => (f (.error e)).settle link c
      | ⟨.stalled, link, c⟩ => ⟨.stalled, link, c⟩ := by
  have hstep : (ofSettled work).run (link, c) =
      match work link c with
      | ⟨.done b, link, c⟩ => (some (.ok b), link, c)
      | ⟨.failed e, link, c⟩ => (some (.error e), link, c)
      | ⟨.stalled, link, c⟩ => (none, link, c) := rfl
  rw [settle_bind, hstep]
  rcases work link c with ⟨_ | _ | _, link, c⟩ <;> rfl

end Wait

namespace IdleGate

variable {σ : Type} [Link σ]

/-- Sends the command. No time passes. -/
def sendCommand (link : σ) (c : Clock) : Settled σ BenchError Unit :=
  match Link.write idleCommand link with
  | (.ok (), link) => ⟨.done (), link, c⟩
  | (.error e, link) => ⟨.failed (.link e), link, c⟩

/-- A device behind a link in virtual time. -/
def inVirtualTime (limit : Limit) : Inquiry (Wait σ) where
  name := do
    let (link, _) ← get
    pure (Link.name link)
  question := Wait.ofSettled sendCommand
  reply := Wait.ofSettled (awaitReply limit)
  pause ms := OptionT.mk fun (link, c) =>
    match c.pause limit ms with
    | some c => (some (), link, c)
    | none => (none, link, c.giveUp limit)

section Steps

variable {α : Type} (limit : Limit) (link : σ) (c : Clock)

theorem settle_question (f : Except BenchError Unit → Wait σ (Except BenchError α)) :
    ((inVirtualTime limit).question >>= f).settle link c =
      match Link.write idleCommand link with
      | (.error e, link) => (f (.error (.link e))).settle link c
      | (.ok (), link) => (f (.ok ())).settle link c := by
  refine (Wait.settle_ofSettled_bind sendCommand f link c).trans ?_
  unfold sendCommand
  rcases Link.write idleCommand link with ⟨_ | _, link⟩ <;> rfl

theorem settle_reply (f : Except BenchError IdleReply → Wait σ (Except BenchError α)) :
    ((inVirtualTime limit).reply >>= f).settle link c =
      let r := awaitReply limit link c
      match r.ending with
      | .failed e => (f (.error e)).settle r.link r.clock
      | .stalled => ⟨.stalled, r.link, r.clock⟩
      | .done reply => (f (.ok reply)).settle r.link r.clock := by
  refine (Wait.settle_ofSettled_bind (awaitReply limit) f link c).trans ?_
  rcases awaitReply limit link c with ⟨_ | _ | _, link, c⟩ <;> rfl

theorem settle_pause (ms : Nat) (f : Unit → Wait σ (Except BenchError α)) :
    ((inVirtualTime limit).pause ms >>= f).settle link c =
      match c.pause limit ms with
      | some c => (f ()).settle link c
      | none => ⟨.stalled, link, c.giveUp limit⟩ := by
  have hstep : ((inVirtualTime limit).pause ms).run (link, c) =
      match c.pause limit ms with
      | some c => (some (), link, c)
      | none => (none, link, c.giveUp limit) := rfl
  rw [Wait.settle_bind, hstep]
  rcases c.pause limit ms with _ | c <;> rfl

end Steps

/-- Asks a device up to `left` more times, after it was asked `asked` times. -/
def ask (gate : IdleGate) (limit : Limit) (left asked : Nat) (link : σ) (c : Clock) :
    Settled σ BenchError Nat :=
  (gate.inquire (inVirtualTime limit) left asked).settle link c

theorem ask_zero (gate : IdleGate) (limit : Limit) (asked : Nat) (link : σ) (c : Clock) :
    gate.ask limit 0 asked link c =
      ⟨.failed (.notIdle (Link.name link) gate.maxAttempts), link, c⟩ :=
  rfl

/-- One question, and what its answer leads to. -/
theorem ask_succ (gate : IdleGate) (limit : Limit) (left asked : Nat) (link : σ) (c : Clock) :
    gate.ask limit (left + 1) asked link c =
      match Link.write idleCommand link with
      | (.error e, link) => ⟨.failed (.link e), link, c⟩
      | (.ok (), link) =>
        let r := awaitReply limit link c
        match r.ending with
        | .failed e => ⟨.failed e, r.link, r.clock⟩
        | .stalled => ⟨.stalled, r.link, r.clock⟩
        | .done .idle => ⟨.done (asked + 1), r.link, r.clock⟩
        | .done .busy =>
          if left = 0 then gate.ask limit left (asked + 1) r.link r.clock
          else
            match r.clock.pause limit gate.retryDelayMs with
            | some c => gate.ask limit left (asked + 1) r.link c
            | none => ⟨.stalled, r.link, r.clock.giveUp limit⟩ := by
  rw [ask, inquire, settle_question]
  rcases Link.write idleCommand link with ⟨_ | _, link⟩
  · rfl
  dsimp only
  rw [settle_reply]
  dsimp only
  rcases (awaitReply limit link c).ending with (_ | _) | _ | _
  · rfl
  · dsimp only
    by_cases hlast : left = 0
    · rw [if_pos hlast, if_pos hlast]
      rfl
    · rw [if_neg hlast, if_neg hlast, settle_pause]
      rfl
  · rfl
  · rfl

/-- Asks a device until it is idle, and answers at which attempt it was. -/
def waitUntilIdle (gate : IdleGate) (limit : Limit) (link : σ) (c : Clock) :
    Settled σ BenchError Nat :=
  gate.ask limit gate.maxAttempts 0 link c

end IdleGate

end BoardBench
