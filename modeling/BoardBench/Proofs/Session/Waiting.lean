import BoardBench.Proofs.Sequence
import BoardBench.Proofs.Session.Transfers
import Mathlib.Logic.Relation

/-!
# Waiting — what a device is asked at a gate, what it answers, and how long that takes

A wait at a gate has two loops: one over the questions, and within it one over the lines that are
read until there is an answer. Here it is one step after the other. A `Moment` of a wait has the
link, the time, and all that has passed over the link so far; a `Step` is one question or one read;
and the moments that are reached from the first one are those of the wait, up to its end
(`IdleGate.reaches_waitUntilIdle`).

What a step preserves is `IdleGate.Going`: the time is that of the reads and the pauses so far, and
as many answers have been heard as were asked for, all of them busy. It follows **how a wait ends,
from the answers alone, and that nothing else than questions is sent and nothing is read ahead**
(`Session.every_wait_is_accounted_for`).

The history of a moment is the whole of what passed so far, although the loops of the gate keep only
a counter. It is there for the statement: how often a device was asked, what it answered, which
entries were taken off its queue and how long it all took are functions of the history, and a fact
about one of them is a fact about a `filterMap` or a sum that grows by one entry at its end. The
simp lemmas for that are the first part of the module.

The time of a moment lags behind the clock of the loop. A pause is made behind a busy answer, but it
is told of the question that follows (`pauseBefore`), because a wait whose last answer is busy makes
none. `reaches_ask` has this difference in its hypothesis.
-/

set_option autoImplicit false

namespace BoardBench

/-! ## What has passed over a link -/

/-- What came of the transfer, if it is a read. -/
def Transfer.outcome? : Transfer → Option (Except LinkError String)
  | .sent _ => none
  | .got outcome => some outcome

/-- What came of the reads, in order. -/
def outcomes (ts : List Transfer) : List (Except LinkError String) :=
  ts.filterMap Transfer.outcome?

/-- The answer that came of a read. -/
def IdleReply.ofOutcome? : Except LinkError String → Option IdleReply
  | .ok line => IdleReply.ofLine? line
  | .error _ => none

/-- The answers among what was read. -/
def answers (ts : List Transfer) : List IdleReply :=
  (outcomes ts).filterMap IdleReply.ofOutcome?

/-- The error that a wait does not go on after. -/
def LinkError.ofOutcome? : Except LinkError String → Option LinkError
  | .ok _ => none
  | .error e => if e.isRejectedLine then none else some e

/-- The errors among what was read, apart from rejected lines. -/
def failures (ts : List Transfer) : List LinkError :=
  (outcomes ts).filterMap LinkError.ofOutcome?

/-- The answer that an entry of the queue gives. A line that the port would reject gives none. -/
def Incoming.reply? : Incoming → Option IdleReply
  | .line text => IdleReply.ofLine? text
  | .nonAscii _ => none

/-- What a read took off the queue of a scripted link. -/
def Incoming.ofOutcome? : Except LinkError String → Option Incoming
  | .ok text => some (.line text)
  | .error (.nonAscii _ text) => some (.nonAscii text)
  | .error _ => none

/-- What was taken off the queue, in order. -/
def taken (ts : List Transfer) : List Incoming :=
  (outcomes ts).filterMap Incoming.ofOutcome?

section Histories

variable (ts : List Transfer) (line : String) (outcome : Except LinkError String)

@[simp] theorem sentLines_snoc_sent : sentLines (ts ++ [.sent line]) = sentLines ts ++ [line] :=
  sentLines_append ts _

@[simp] theorem sentLines_snoc_got : sentLines (ts ++ [.got outcome]) = sentLines ts := by
  rw [sentLines_append]
  exact List.append_nil _

@[simp] theorem outcomes_snoc_sent : outcomes (ts ++ [.sent line]) = outcomes ts := by
  rw [outcomes, List.filterMap_append]
  exact List.append_nil _

@[simp] theorem outcomes_snoc_got : outcomes (ts ++ [.got outcome]) = outcomes ts ++ [outcome] :=
  List.filterMap_append

@[simp] theorem answers_snoc_sent : answers (ts ++ [.sent line]) = answers ts := by
  rw [answers, outcomes_snoc_sent, answers]

@[simp] theorem answers_snoc_got : answers (ts ++ [.got outcome]) =
    answers ts ++ (IdleReply.ofOutcome? outcome).toList := by
  rw [answers, outcomes_snoc_got, filterMap_snoc, answers]

@[simp] theorem failures_snoc_sent : failures (ts ++ [.sent line]) = failures ts := by
  rw [failures, outcomes_snoc_sent, failures]

@[simp] theorem failures_snoc_got : failures (ts ++ [.got outcome]) =
    failures ts ++ (LinkError.ofOutcome? outcome).toList := by
  rw [failures, outcomes_snoc_got, filterMap_snoc, failures]

end Histories

namespace ScriptedLink

/-- The link with something put back in front of its queue. -/
def putBack (items : List Incoming) (l : ScriptedLink) : ScriptedLink :=
  { l with pending := items ++ l.pending }

/-- The link after some lines were sent to it. -/
def writeAll (lines : List String) (l : ScriptedLink) : ScriptedLink :=
  lines.foldl (fun l line => l.write line) l

/-- Replies are queued at the end, so that it does not matter what is in front. -/
theorem writeAll_putBack (lines : List String) (items : List Incoming) (l : ScriptedLink) :
    (l.putBack items).writeAll lines = (l.writeAll lines).putBack items := by
  induction lines generalizing l with
  | nil => rfl
  | cons line lines ih =>
    have hwrite : (l.putBack items).write line = (l.write line).putBack items := by
      simp [write, putBack]
    exact (congrArg (writeAll lines) hwrite).trans (ih (l.write line))

/-- A read takes one entry off the front of the queue, or none if the queue is empty. -/
theorem putBack_of_read {l l' : ScriptedLink} {d : Nat} {outcome : Except LinkError String}
    (h : l.read = .after d outcome l') :
    d = l.delayMs ∧ l'.putBack (Incoming.ofOutcome? outcome).toList = l := by
  unfold read at h
  split at h
  · rename_i hp
    cases h
    exact ⟨rfl, by simp [putBack, Incoming.ofOutcome?, ← hp]⟩
  · rename_i hp
    cases h
    exact ⟨rfl, by simp [putBack, Incoming.ofOutcome?, ← hp]⟩
  · split at h
    · cases h
    · cases h
      exact ⟨rfl, rfl⟩

/-- Only a link that hangs makes a read wait for good, and only when nothing is left on it. -/
theorem drained_of_read {l : ScriptedLink} {d : Nat} (h : l.read = .never d) :
    l.pending = [] ∧ l.hangs = true := by
  unfold read at h
  split at h
  · cases h
  · cases h
  · rename_i hp
    split at h
    · rename_i hhangs
      exact ⟨hp, hhangs⟩
    · cases h

end ScriptedLink

/-- **Lines are read in order and each of them once**: with what was taken put back, the link is as
if nothing had been read while the commands were sent. -/
theorem Wire.putBack_taken {l l' : ScriptedLink} {ts : List Transfer} (h : Wire l ts l') :
    l'.putBack (taken ts) = l.writeAll (sentLines ts) := by
  induction h with
  | nil l => rfl
  | @cons l m l' t ts ht _ ih =>
    cases t with
    | sent line =>
      obtain ⟨outcome, hwrite⟩ := ht
      cases hwrite
      exact ih
    | got outcome =>
      obtain ⟨d, hread⟩ := ht
      obtain ⟨-, hback⟩ := ScriptedLink.putBack_of_read hread
      have htaken : taken (.got outcome :: ts) =
          (Incoming.ofOutcome? outcome).toList ++ taken ts := by
        show List.filterMap Incoming.ofOutcome? (outcome :: outcomes ts) = _
        rw [List.filterMap_cons]
        cases Incoming.ofOutcome? outcome <;> rfl
      calc l'.putBack (taken (.got outcome :: ts))
          = (l'.putBack (taken ts)).putBack (Incoming.ofOutcome? outcome).toList := by
            rw [htaken]
            simp [ScriptedLink.putBack]
        _ = (m.writeAll (sentLines ts)).putBack (Incoming.ofOutcome? outcome).toList := by rw [ih]
        _ = (m.putBack (Incoming.ofOutcome? outcome).toList).writeAll (sentLines ts) :=
            (ScriptedLink.writeAll_putBack _ _ m).symm
        _ = l.writeAll (sentLines (.got outcome :: ts)) := by
            rw [hback]
            rfl

theorem ScriptedLink.writeAll_keeps (lines : List String) (l : ScriptedLink) :
    (l.writeAll lines).name = l.name ∧ (l.writeAll lines).delayMs = l.delayMs := by
  induction lines generalizing l with
  | nil => exact ⟨rfl, rfl⟩
  | cons line lines ih => exact ih (l.write line)

theorem Wire.name_eq {l l' : ScriptedLink} {ts : List Transfer} (h : Wire l ts l') :
    l'.name = l.name :=
  (congrArg ScriptedLink.name h.putBack_taken).trans (ScriptedLink.writeAll_keeps _ l).1

theorem Wire.delayMs_eq {l l' : ScriptedLink} {ts : List Transfer} (h : Wire l ts l') :
    l'.delayMs = l.delayMs :=
  (congrArg ScriptedLink.delayMs h.putBack_taken).trans (ScriptedLink.writeAll_keeps _ l).2

/-! ## Moments of a wait -/

namespace IdleGate

/-- What comes next in a wait. -/
inductive Next where
  | ask
  | listen
  | stop (ending : Ending BenchError Nat)

/-- What comes next after a read, if the device was asked so often. -/
def Next.afterRead (asked : Nat) : Except LinkError String → Next
  | .ok line =>
    match IdleReply.ofLine? line with
    | some .idle => .stop (.done asked)
    | some .busy => .ask
    | none => .listen
  | .error e => if e.isRejectedLine then .listen else .stop (.failed (.link e))

/-- How far a wait has come. -/
structure Moment (σ : Type) where
  next : Next
  link : σ
  now : Nat
  history : List Transfer

/-- How often a device has been asked. -/
def requests (ts : List Transfer) : Nat :=
  (sentLines ts).length

@[simp] theorem requests_snoc_sent (ts : List Transfer) (line : String) :
    requests (ts ++ [.sent line]) = requests ts + 1 := by
  simp [requests]

@[simp] theorem requests_snoc_got (ts : List Transfer) (outcome : Except LinkError String) :
    requests (ts ++ [.got outcome]) = requests ts := by
  simp [requests]

section Machine

variable {σ : Type} [Link σ] {gate : IdleGate} {l : σ} {c : Clock} {now : Nat}
  {h : List Transfer}

/-- The pause before a question: there is none before the first one. -/
def pauseBefore (gate : IdleGate) (asked : Nat) : Nat :=
  if asked = 0 then 0 else gate.retryDelayMs

/-- One question, one read, or the end. -/
inductive Step (gate : IdleGate) : Moment σ → Moment σ → Prop
  | request {l l' : σ} {now : Nat} {h : List Transfer} (hmore : requests h < gate.maxAttempts)
      (hwrite : Link.write idleCommand l = (.ok (), l')) :
      Step gate ⟨.ask, l, now, h⟩
        ⟨.listen, l', now + gate.pauseBefore (requests h), h ++ [.sent idleCommand]⟩
  | refused {l l' : σ} {now : Nat} {h : List Transfer} {e : LinkError}
      (hmore : requests h < gate.maxAttempts)
      (hwrite : Link.write idleCommand l = (.error e, l')) :
      Step gate ⟨.ask, l, now, h⟩ ⟨.stop (.failed (.link e)), l',
        now + gate.pauseBefore (requests h), h ++ [.sent idleCommand]⟩
  | giveUp {l : σ} {now : Nat} {h : List Transfer} (hmost : gate.maxAttempts ≤ requests h) :
      Step gate ⟨.ask, l, now, h⟩
        ⟨.stop (.failed (.notIdle (Link.name l) gate.maxAttempts)), l, now, h⟩
  | read {l l' : σ} {now d : Nat} {h : List Transfer} {outcome : Except LinkError String}
      (hread : Link.read l = .after d outcome l') :
      Step gate ⟨.listen, l, now, h⟩
        ⟨.afterRead (requests h) outcome, l', now + d, h ++ [.got outcome]⟩
  | hang {l : σ} {now d : Nat} {h : List Transfer} (hread : Link.read l = .never d) :
      Step gate ⟨.listen, l, now, h⟩ ⟨.stop .stalled, l, now, h⟩

/-- What comes after some moment, sooner or later. -/
abbrev Reaches (gate : IdleGate) : Moment σ → Moment σ → Prop :=
  Relation.ReflTransGen gate.Step

/-- The moment at which a wait begins. -/
def Moment.start (l : σ) (now : Nat) : Moment σ :=
  ⟨.ask, l, now, []⟩

/-- There is only one way to go on. -/
theorem step_unique : Relator.RightUnique (gate.Step (σ := σ)) := by
  intro m m₁ m₂ h₁ h₂
  -- what the link does is a function, and one cannot both ask once more and give up
  cases h₁ <;> cases h₂ <;> simp_all <;> omega

theorem not_step_of_stop {m m' : Moment σ} {ending : Ending BenchError Nat}
    (hm : m.next = .stop ending) : ¬ gate.Step m m' := by
  intro hstep
  cases hstep <;> cases hm

/-! ## The wait as a run of moments -/

/-- Without a limit only a link that hangs makes a read wait for good. -/
theorem read_of_readBy_stalled {l' : σ} {c' : Clock}
    (hr : Link.readBy none l c = ⟨.stalled, l', c'⟩) :
    (∃ d, Link.read l = .never d) ∧ l' = l ∧ c' = c := by
  unfold Link.readBy at hr
  cases hread : Link.read l with
  | never d =>
    rw [hread] at hr
    cases hr
    exact ⟨⟨d, rfl⟩, rfl, rfl⟩
  | after d outcome rest =>
    obtain ⟨c₁, hpause⟩ : ∃ c₁, (if d = 0 then some c else c.pause none d) = some c₁ := by
      split
      · exact ⟨c, rfl⟩
      · exact pause_none c d
    rw [hread] at hr
    simp only [hpause] at hr
    cases outcome <;> cases hr

/-- What comes next when the lines up to an answer have been read. -/
def Next.afterReply (asked : Nat) : Ending BenchError IdleReply → Next
  | .done .idle => .stop (.done asked)
  | .done .busy => .ask
  | .failed e => .stop (.failed e)
  | .stalled => .stop .stalled

/-- The inner loop: reads, up to an answer. -/
theorem reaches_awaitReply (gate : IdleGate) (l : σ) (c : Clock) (h : List Transfer) :
    ∃ h', requests h' = requests h ∧ gate.Reaches ⟨.listen, l, c.now, h⟩
      ⟨.afterReply (requests h) (awaitReply none l c).ending, (awaitReply none l c).link,
        (awaitReply none l c).clock.now, h'⟩ := by
  -- the cases are those of the loop: an answer, a line that is none, a rejected line, an error of
  -- the link, and a read that never returns
  fun_induction awaitReply none l c generalizing h with
  | case1 l c line rest c' hread reply hreply =>
    obtain ⟨d, hread, hnow⟩ := read_of_readBy_done hread
    refine ⟨h ++ [.got (.ok line)], requests_snoc_got h _, ?_⟩
    have hnext : Next.afterRead (requests h) (.ok line) =
        .afterReply (requests h) (.done reply) := by
      rw [Next.afterRead, hreply]
      cases reply <;> rfl
    rw [hnow, ← hnext]
    exact .single (.read hread)
  | case2 l c line rest c' hread hnone ih =>
    obtain ⟨d, hread, hnow⟩ := read_of_readBy_done hread
    obtain ⟨h', hasked, hreach⟩ := ih (h ++ [.got (.ok line)])
    rw [requests_snoc_got] at hasked hreach
    refine ⟨h', hasked, .head (.read hread) ?_⟩
    rwa [Next.afterRead, hnone, ← hnow]
  | case3 l c e rest c' hread he ih =>
    obtain ⟨d, hread, hnow⟩ := read_of_readBy_failed hread
    obtain ⟨h', hasked, hreach⟩ := ih (h ++ [.got (.error e)])
    rw [requests_snoc_got] at hasked hreach
    refine ⟨h', hasked, .head (.read hread) ?_⟩
    rwa [Next.afterRead, if_pos he, ← hnow]
  | case4 l c e rest c' hread he =>
    obtain ⟨d, hread, hnow⟩ := read_of_readBy_failed hread
    refine ⟨h ++ [.got (.error e)], requests_snoc_got h _, ?_⟩
    have hnext : Next.afterRead (requests h) (.error e) =
        .afterReply (requests h) (.failed (.link e)) := by
      rw [Next.afterRead, if_neg he]
      rfl
    rw [hnow, ← hnext]
    exact .single (.read hread)
  | case5 l c rest c' hread =>
    obtain ⟨⟨d, hnever⟩, rfl, rfl⟩ := read_of_readBy_stalled hread
    exact ⟨h, rfl, .single (.hang hnever)⟩

/-- The outer loop: questions, up to the end. The clock of the loop is ahead of the moment by the
pause, which is made before a question if another one is left. -/
theorem reaches_ask (gate : IdleGate) (left asked : Nat) (l : σ) (c : Clock) (now : Nat)
    (h : List Transfer) (hasked : requests h = asked) (hleft : asked + left = gate.maxAttempts)
    (hnow : c.now = now + if left = 0 then 0 else gate.pauseBefore asked) :
    ∃ m, gate.Reaches ⟨.ask, l, now, h⟩ m ∧ m.next = .stop (gate.ask none left asked l c).ending ∧
      m.link = (gate.ask none left asked l c).link ∧
      m.now = (gate.ask none left asked l c).clock.now := by
  induction left generalizing asked l c now h with
  | zero =>
    refine ⟨_, .single (.giveUp ?_), rfl, rfl, hnow.symm⟩
    omega
  | succ left ih =>
    rw [if_neg (Nat.succ_ne_zero left), ← hasked] at hnow
    have hmore : requests h < gate.maxAttempts := by omega
    rw [ask_succ]
    split
    · rename_i e l' hwrite
      exact ⟨_, .single (.refused hmore hwrite), rfl, rfl, hnow.symm⟩
    · rename_i l' hwrite
      obtain ⟨h', hasked', hreach⟩ :=
        reaches_awaitReply gate l' c (h ++ [.sent idleCommand])
      have hask : gate.Reaches ⟨.ask, l, now, h⟩ _ :=
        .head (.request hmore hwrite) (hnow ▸ hreach)
      rw [requests_snoc_sent, hasked] at hask hasked'
      dsimp only
      generalize awaitReply none l' c = r at hask ⊢
      obtain ⟨ending, link, clock⟩ := r
      cases ending with
      | failed e => exact ⟨_, hask, rfl, rfl, rfl⟩
      | stalled => exact ⟨_, hask, rfl, rfl, rfl⟩
      | done reply =>
        -- a busy device is asked again, after a pause if there is a question left
        cases reply with
        | idle => exact ⟨_, hask, rfl, rfl, rfl⟩
        | busy =>
          dsimp only
          split
          · rename_i hlast
            obtain ⟨m, hreach', hend⟩ := ih (asked + 1) link clock clock.now h' hasked'
              (by omega) (by rw [if_pos hlast, Nat.add_zero])
            exact ⟨m, hask.trans hreach', hend⟩
          · rename_i hanother
            obtain ⟨c', hpause⟩ := pause_none clock gate.retryDelayMs
            rw [hpause]
            obtain ⟨m, hreach', hend⟩ := ih (asked + 1) link c' clock.now h' hasked'
              (by omega) (by rw [if_neg hanother, Clock.now_of_pause hpause]; rfl)
            exact ⟨m, hask.trans hreach', hend⟩

/-- **A wait is the run of its moments.** -/
theorem reaches_waitUntilIdle (gate : IdleGate) (l : σ) (c : Clock) :
    ∃ m, gate.Reaches (.start l c.now) m ∧ m.next = .stop (gate.waitUntilIdle none l c).ending ∧
      m.link = (gate.waitUntilIdle none l c).link ∧
      m.now = (gate.waitUntilIdle none l c).clock.now := by
  refine reaches_ask gate gate.maxAttempts 0 l c c.now [] rfl (Nat.zero_add _) ?_
  split <;> rfl

end Machine

/-! ## What a step preserves -/

section Accounts

variable {gate : IdleGate} {l : ScriptedLink} {t : Nat} {m m' : Moment ScriptedLink}
  {h : List Transfer}

/-- All questions but the last one have been answered, with "busy". -/
def Unanswered (h : List Transfer) : Prop :=
  ∃ k, requests h = k + 1 ∧ answers h = List.replicate k .busy

/-- What has been heard, by what comes next. -/
def Heard (gate : IdleGate) (m : Moment ScriptedLink) : Prop :=
  match m.next with
  | .ask =>
    answers m.history = List.replicate (requests m.history) .busy ∧ failures m.history = []
  | .listen => Unanswered m.history ∧ failures m.history = []
  | .stop (.done k) =>
    requests m.history = k ∧ failures m.history = [] ∧
      (∃ j, k = j + 1 ∧ answers m.history = List.replicate j .busy ++ [.idle]) ∧
      ∃ line, m.history.getLast? = some (.got (.ok line)) ∧
        IdleReply.ofLine? line = some .idle
  | .stop (.failed (.notIdle name most)) =>
    name = m.link.name ∧ most = gate.maxAttempts ∧ requests m.history = most ∧
      answers m.history = List.replicate most .busy ∧ failures m.history = []
  | .stop (.failed (.link e)) =>
    Unanswered m.history ∧ failures m.history = [e] ∧ m.history.getLast? = some (.got (.error e))
  | .stop (.failed _) => False
  | .stop .stalled =>
    Unanswered m.history ∧ failures m.history = [] ∧ m.link.pending = [] ∧ m.link.hangs = true

/-- The books of a wait that began at `t` on the link `l`. -/
structure Going (gate : IdleGate) (l : ScriptedLink) (t : Nat) (m : Moment ScriptedLink) :
    Prop where
  wire : Wire l m.history m.link
  sent : sentLines m.history = List.replicate (requests m.history) idleCommand
  bounded : requests m.history ≤ gate.maxAttempts
  time : m.now = t + (outcomes m.history).length * l.delayMs +
    (requests m.history - 1) * gate.retryDelayMs
  heard : gate.Heard m

theorem going_start (gate : IdleGate) (l : ScriptedLink) (t : Nat) :
    Going gate l t (.start l t) := by
  refine ⟨.nil l, rfl, Nat.zero_le _, ?_, rfl, rfl⟩
  simp [Moment.start, outcomes, requests, sentLines]

/-- The pauses so far, with the one before the next question. -/
theorem pauses_add_pauseBefore (gate : IdleGate) (asked : Nat) :
    (asked - 1) * gate.retryDelayMs + gate.pauseBefore asked = asked * gate.retryDelayMs := by
  cases asked with
  | zero => simp [pauseBefore]
  | succ k => simp [pauseBefore, Nat.succ_mul]

/-- What a read adds to what was heard while the last question was open. -/
theorem heard_afterRead {l' : ScriptedLink} {now : Nat} {outcome : Except LinkError String}
    (hopen : Unanswered h) (hnone : failures h = []) :
    gate.Heard ⟨.afterRead (requests h) outcome, l', now, h ++ [.got outcome]⟩ := by
  obtain ⟨k, hasked, hbusy⟩ := hopen
  cases outcome with
  | ok line =>
    have hfailures : failures (h ++ [.got (.ok line)]) = [] := by
      rw [failures_snoc_got, hnone]
      rfl
    have hanswers : answers (h ++ [.got (.ok line)]) =
        List.replicate k .busy ++ (IdleReply.ofLine? line).toList := by
      rw [answers_snoc_got, hbusy]
      rfl
    -- an answer closes the question; any other line leaves it open
    cases hreply : IdleReply.ofLine? line with
    | none =>
      rw [hreply, Option.toList_none, List.append_nil] at hanswers
      simp only [Heard, Next.afterRead, hreply]
      exact ⟨⟨k, by rw [requests_snoc_got, hasked], hanswers⟩, hfailures⟩
    | some reply =>
      rw [hreply] at hanswers
      cases reply with
      | busy =>
        simp only [Heard, Next.afterRead, hreply]
        refine ⟨?_, hfailures⟩
        rw [requests_snoc_got, hasked, List.replicate_succ', hanswers]
        rfl
      | idle =>
        simp only [Heard, Next.afterRead, hreply]
        exact ⟨requests_snoc_got h _, hfailures, ⟨k, hasked, hanswers⟩, line,
          List.getLast?_concat, hreply⟩
  | error e =>
    have hanswers : answers (h ++ [.got (.error e)]) = List.replicate k .busy := by
      rw [answers_snoc_got, hbusy]
      exact List.append_nil _
    have hopen' : Unanswered (h ++ [.got (.error e)]) :=
      ⟨k, by rw [requests_snoc_got, hasked], hanswers⟩
    -- a rejected line is passed over like a line that is no answer
    by_cases he : e.isRejectedLine = true
    · simp only [Heard, Next.afterRead, if_pos he]
      refine ⟨hopen', ?_⟩
      rw [failures_snoc_got, hnone, LinkError.ofOutcome?, if_pos he]
      rfl
    · simp only [Heard, Next.afterRead, if_neg he]
      refine ⟨hopen', ?_, List.getLast?_concat⟩
      rw [failures_snoc_got, hnone, LinkError.ofOutcome?, if_neg he]
      rfl

theorem Going.step (h : Going gate l t m) (hs : gate.Step m m') : Going gate l t m' := by
  obtain ⟨hwire, hsent, hbounded, htime, hheard⟩ := h
  -- the link is scripted and takes every command, so that a question cannot be refused
  cases hs with
  | @request l₁ l₂ now ts hmore hwrite =>
    dsimp only at hwire hsent hbounded htime
    cases hwrite
    refine ⟨hwire.append (wire_sent rfl), ?_, ?_, ?_, ?_⟩
    · rw [sentLines_snoc_sent, requests_snoc_sent, List.replicate_succ', hsent]
    · rw [requests_snoc_sent]
      exact hmore
    · rw [outcomes_snoc_sent, requests_snoc_sent, Nat.add_sub_cancel, ← pauses_add_pauseBefore,
        ← Nat.add_assoc, ← htime]
    · obtain ⟨hbusy, hnone⟩ := hheard
      refine ⟨⟨requests ts, requests_snoc_sent ts _, ?_⟩, ?_⟩
      · rw [answers_snoc_sent, hbusy]
      · rw [failures_snoc_sent, hnone]
  | refused hmore hwrite => cases hwrite
  | giveUp hmost =>
    have hall := Nat.le_antisymm hbounded hmost
    obtain ⟨hbusy, hnone⟩ := hheard
    exact ⟨hwire, hsent, hbounded, htime, rfl, rfl, hall, hall ▸ hbusy, hnone⟩
  | @read l₁ l₂ now d ts outcome hread =>
    dsimp only at hwire hsent hbounded htime
    obtain ⟨hd, -⟩ := ScriptedLink.putBack_of_read hread
    refine ⟨hwire.append (wire_got hread), ?_, ?_, ?_, heard_afterRead hheard.1 hheard.2⟩
    · rw [sentLines_snoc_got, requests_snoc_got, hsent]
    · rw [requests_snoc_got]
      exact hbounded
    · show now + d = _
      rw [outcomes_snoc_got, requests_snoc_got, List.length_append, List.length_singleton,
        Nat.succ_mul, htime, hd, hwire.delayMs_eq]
      omega
  | hang hread =>
    exact ⟨hwire, hsent, hbounded, htime, hheard.1, hheard.2, ScriptedLink.drained_of_read hread⟩

theorem Going.reaches (h : Going gate l t m) (hr : gate.Reaches m m') : Going gate l t m' := by
  induction hr with
  | refl => exact h
  | tail _ hstep ih => exact ih.step hstep

/-! ## How a wait ends -/

/-- What holds at any moment of a wait on the link `l` that began at `t`. Only the question is sent,
it is noted each time, and not too often. What was read is what the link had to give, in order, with
the replies to the questions behind what was there before; the rest is still on it. The time is that
of the reads that came to an end, and of the pauses between the questions. -/
structure Accounted (gate : IdleGate) (l : ScriptedLink) (t : Nat) (m : Moment ScriptedLink) :
    Prop where
  wire : Wire l m.history m.link
  sent : sentLines m.history = List.replicate (requests m.history) idleCommand
  bounded : requests m.history ≤ gate.maxAttempts
  written : m.link.written = l.written ++ List.replicate (requests m.history) idleCommand
  queue : m.link.putBack (taken m.history) =
    l.writeAll (List.replicate (requests m.history) idleCommand)
  time : m.now = t + (outcomes m.history).length * l.delayMs +
    (requests m.history - 1) * gate.retryDelayMs

theorem Going.accounted (h : Going gate l t m) : Accounted gate l t m :=
  ⟨h.wire, h.sent, h.bounded, h.sent ▸ h.wire.written, h.sent ▸ h.wire.putBack_taken, h.time⟩

/-- How a wait on the link `l` ends, said by what has passed until then. -/
structure Ended (most : Nat) (l : ScriptedLink) (ending : Ending BenchError Nat)
    (m : Moment ScriptedLink) : Prop where
  /-- The device is idle at the `k`-th question if its `k`-th answer is the first to say so. -/
  done_iff : ∀ k, ending = .done k ↔ 1 ≤ k ∧ k ≤ most ∧
    List.replicate (k - 1) .busy ++ [.idle] <+: answers m.history
  /-- Then nothing was asked or read after that answer. -/
  of_done : ∀ k, ending = .done k → requests m.history = k ∧
    answers m.history = List.replicate (k - 1) .busy ++ [.idle] ∧
    ∃ line, m.history.getLast? = some (.got (.ok line)) ∧ IdleReply.ofLine? line = some .idle
  /-- The device is busy for good if it says so as often as it may be asked. -/
  notIdle_iff : ∀ name n, ending = .failed (.notIdle name n) ↔
    name = l.name ∧ n = most ∧ answers m.history = List.replicate most .busy
  of_notIdle : ∀ name n, ending = .failed (.notIdle name n) → requests m.history = most
  /-- An error of the link ends the wait, unless it is a rejected line. -/
  link_iff : ∀ e, ending = .failed (.link e) ↔ e ∈ failures m.history
  of_link : ∀ e, ending = .failed (.link e) → m.history.getLast? = some (.got (.error e))
  /-- There are no other errors. -/
  failed : ∀ e, ending = .failed e → (∃ name n, e = .notIdle name n) ∨ ∃ e', e = .link e'
  /-- Otherwise the wait does not end, for want of anything to read. -/
  stalled : ending = .stalled → m.link.pending = [] ∧ m.link.hangs = true

/-- The first idle answer has its place. -/
theorem eq_of_replicate_concat_prefix {a b : Nat}
    (hp : List.replicate a IdleReply.busy ++ [.idle] <+: List.replicate b .busy ++ [.idle]) :
    a = b := by
  induction a generalizing b with
  | zero =>
    cases b with
    | zero => rfl
    | succ b => simp [List.replicate_succ] at hp
  | succ a ih =>
    cases b with
    | zero => simp [List.replicate_succ] at hp
    | succ b =>
      rw [List.replicate_succ, List.replicate_succ, List.cons_append, List.cons_append,
        List.cons_prefix_cons] at hp
      rw [ih hp.2]

theorem not_concat_prefix_replicate {a b : Nat} :
    ¬ List.replicate a IdleReply.busy ++ [.idle] <+: List.replicate b .busy := by
  intro hp
  have hmem := hp.subset (List.mem_append_right _ (List.mem_singleton_self IdleReply.idle))
  cases List.eq_of_mem_replicate hmem

/-- An open question: there are not enough answers yet to decide anything. -/
theorem Unanswered.undecided (h' : Unanswered h) (hbounded : requests h ≤ gate.maxAttempts) :
    (∀ a, ¬ List.replicate a .busy ++ [.idle] <+: answers h) ∧
      answers h ≠ List.replicate gate.maxAttempts .busy := by
  obtain ⟨k, hasked, hanswers⟩ := h'
  constructor
  · intro a
    rw [hanswers]
    exact not_concat_prefix_replicate
  · intro hall
    have hlength := congrArg List.length (hanswers.symm.trans hall)
    rw [List.length_replicate, List.length_replicate] at hlength
    omega

/-- A wait that ends before its last question is answered. -/
theorem Unanswered.ended {ending : Ending BenchError Nat} (hopen : Unanswered m.history)
    (hbounded : requests m.history ≤ gate.maxAttempts) (hidle : ∀ k, ending ≠ .done k)
    (hbusy : ∀ name n, ending ≠ .failed (.notIdle name n))
    (hlink : ∀ e, ending = .failed (.link e) ↔ e ∈ failures m.history)
    (hlast : ∀ e, ending = .failed (.link e) → m.history.getLast? = some (.got (.error e)))
    (hfailed : ∀ e, ending = .failed e → ∃ e', e = .link e')
    (hstalled : ending = .stalled → m.link.pending = [] ∧ m.link.hangs = true) :
    Ended gate.maxAttempts l ending m := by
  obtain ⟨hnoIdle, hnoBusy⟩ := hopen.undecided hbounded
  constructor
  · intro k
    exact ⟨fun hk => absurd hk (hidle k), fun hk => absurd hk.2.2 (hnoIdle _)⟩
  · intro k hk
    exact absurd hk (hidle k)
  · intro name n
    exact ⟨fun hn => absurd hn (hbusy name n), fun hall => absurd hall.2.2 hnoBusy⟩
  · intro name n hn
    exact absurd hn (hbusy name n)
  · exact hlink
  · exact hlast
  · intro e he
    exact .inr (hfailed e he)
  · exact hstalled

/-- A wait that ends with an idle answer, behind busy ones. -/
theorem ended_of_idle {j : Nat} (hasked : requests m.history = j + 1)
    (hbounded : requests m.history ≤ gate.maxAttempts) (hnone : failures m.history = [])
    (hanswers : answers m.history = List.replicate j .busy ++ [.idle])
    (hlast : ∃ line, m.history.getLast? = some (.got (.ok line)) ∧
      IdleReply.ofLine? line = some .idle) :
    Ended gate.maxAttempts l (.done (j + 1)) m := by
  refine ⟨fun k => ?_, ?_, fun name n => ?_, nofun, fun e => ?_, nofun, nofun, nofun⟩
  · rw [hanswers]
    constructor
    · intro hk
      cases hk
      exact ⟨Nat.succ_pos j, hasked ▸ hbounded, List.prefix_rfl⟩
    · intro ⟨hk, _, hp⟩
      rw [← eq_of_replicate_concat_prefix hp, Nat.sub_add_cancel hk]
  · intro k hk
    cases hk
    exact ⟨hasked, hanswers, hlast⟩
  · refine ⟨nofun, fun ⟨_, _, hall⟩ => ?_⟩
    have hp : List.replicate j IdleReply.busy ++ [.idle] <+:
        List.replicate gate.maxAttempts .busy :=
      (hanswers.symm.trans hall) ▸ List.prefix_rfl
    exact absurd hp not_concat_prefix_replicate
  · rw [hnone]
    exact ⟨nofun, nofun⟩

/-- A wait that ends because there were busy answers only. -/
theorem ended_of_busy (hname : m.link.name = l.name)
    (hasked : requests m.history = gate.maxAttempts) (hnone : failures m.history = [])
    (hanswers : answers m.history = List.replicate gate.maxAttempts .busy) :
    Ended gate.maxAttempts l (.failed (.notIdle m.link.name gate.maxAttempts)) m := by
  refine ⟨fun k => ?_, nofun, fun name n => ?_, fun _ _ _ => hasked, fun e => ?_, nofun, ?_, nofun⟩
  · rw [hanswers]
    exact ⟨nofun, fun hk => absurd hk.2.2 not_concat_prefix_replicate⟩
  · constructor
    · intro hn
      cases hn
      exact ⟨hname, rfl, hanswers⟩
    · intro ⟨hn, hmost, _⟩
      rw [hn, hmost, hname]
  · rw [hnone]
    exact ⟨nofun, nofun⟩
  · intro e he
    cases he
    exact .inl ⟨_, _, rfl⟩

/-- What has been heard decides how the wait ends. -/
theorem Going.ended {ending : Ending BenchError Nat} (h : Going gate l t m)
    (hm : m.next = .stop ending) : Ended gate.maxAttempts l ending m := by
  have hheard := h.heard
  unfold Heard at hheard
  rw [hm] at hheard
  -- a gate has two errors of its own; the other errors of a test end no wait, and that is how
  -- `Heard` has it
  cases ending with
  | done k =>
    obtain ⟨hasked, hnone, ⟨j, rfl, hanswers⟩, hlast⟩ := hheard
    exact ended_of_idle hasked h.bounded hnone hanswers hlast
  | stalled =>
    obtain ⟨hopen, hnone, hdrained⟩ := hheard
    refine hopen.ended h.bounded nofun nofun (fun e => ?_) nofun nofun fun _ => hdrained
    rw [hnone]
    exact ⟨nofun, nofun⟩
  | failed e =>
    cases e with
    | link e =>
      obtain ⟨hopen, hsome, hlast⟩ := hheard
      refine hopen.ended h.bounded nofun nofun (fun e' => ?_) (fun e' he' => ?_) (fun e' he' => ?_)
        nofun
      · rw [hsome, List.mem_singleton, Ending.failed.injEq, BenchError.link.injEq, eq_comm]
      · cases he'
        exact hlast
      · cases he'
        exact ⟨e, rfl⟩
    | notIdle name most =>
      obtain ⟨rfl, rfl, hasked, hanswers, hnone⟩ := hheard
      exact ended_of_busy h.wire.name_eq hasked hnone hanswers
    | line port e => exact hheard.elim
    | emptyLine port => exact hheard.elim
    | phaseIncomplete start timeoutMs pending collected => exact hheard.elim
    | queueTooLarge capacity => exact hheard.elim
    | mergeClosed port => exact hheard.elim
    | identity e => exact hheard.elim
    | report path reason => exact hheard.elim
    | config e => exact hheard.elim

/-- What is reached is on the way to the end. -/
theorem reaches_of_stop {m₀ : Moment ScriptedLink} {ending : Ending BenchError Nat}
    (hend : gate.Reaches m₀ m) (hm : m.next = .stop ending) (hr : gate.Reaches m₀ m') :
    gate.Reaches m' m := by
  rcases hend.total_of_right_unique step_unique hr with hafter | hbefore
  · rcases hafter.cases_head with rfl | ⟨n, hstep, -⟩
    · exact .refl
    · exact absurd hstep (not_step_of_stop hm)
  · exact hbefore

end Accounts

end IdleGate

/-! ## The answers -/

/-- The payload that gives an answer, in small letters. -/
def IdleReply.payload : IdleReply → String
  | .idle => "idle true"
  | .busy => "idle false"

theorem IdleReply.of_payload_iff {cs : List Char} {reply : IdleReply} :
    (if cs = "idle true".toList then some IdleReply.idle
      else if cs = "idle false".toList then some IdleReply.busy else none) = some reply ↔
      cs = reply.payload.toList := by
  have hdiffer : "idle false".toList ≠ "idle true".toList := by decide
  constructor
  · intro h
    split at h
    · rename_i hidle
      cases h
      exact hidle
    · split at h
      · rename_i hbusy
        cases h
        exact hbusy
      · cases h
  · rintro rfl
    cases reply with
    | idle => exact if_pos rfl
    | busy => exact (if_neg hdiffer).trans (if_pos rfl)

/-- An answer is an event with one of two payloads. Empty lines are passed over before anything is
read from them, but they are no events anyway. -/
theorem IdleReply.ofLine?_eq_some_iff {line : String} {reply : IdleReply} :
    IdleReply.ofLine? line = some reply ↔ line ≠ idleCommand ∧
      ∃ e, Line.parse line = .ok (.event e) ∧
        Text.foldCase e.payload = reply.payload.toList := by
  by_cases hskip : line = "" ∨ line = idleCommand
  · have hnone : IdleReply.ofLine? line = none := by
      rcases hskip with rfl | rfl <;> rfl
    rw [hnone]
    refine ⟨nofun, ?_⟩
    rintro ⟨hne, e, hparse, -⟩
    rcases hskip with rfl | rfl
    · cases hparse
    · exact absurd rfl hne
  · obtain ⟨hempty, hne⟩ := not_or.1 hskip
    have hpass : (line.isEmpty || line == idleCommand) = false := by
      simp [hempty, hne]
    simp only [IdleReply.ofLine?, hpass]
    cases hparse : Line.parse line with
    | error e => simp
    | ok read =>
      cases read with
      | banner text => simp
      | event e =>
        simp only [Except.ok.injEq, Line.event.injEq, exists_eq_left', ne_eq, hne,
          not_false_eq_true, true_and]
        exact IdleReply.of_payload_iff

namespace Session

open IdleGate

section Gates

variable {gate : IdleGate} {s : Session ScriptedLink}
  {r r' : Settled ScriptedLink BenchError Nat}

/-- While the first device is not idle, nothing happens on the second link … -/
theorem ensureIdle_of_not_done (hr : gate.waitUntilIdle none s.first s.clock = r)
    (h : ∀ k, r.ending ≠ .done k) :
    (s.ensureIdle gate none).2 = ⟨r.link, s.second, r.clock⟩ ∧
      (∀ e, (s.ensureIdle gate none).1 = .failed e ↔ r.ending = .failed e) ∧
      (s.ensureIdle gate none).1 ≠ .done () := by
  simp only [ensureIdle, waitUntilIdle, link, after, hr]
  obtain ⟨ending, l, c⟩ := r
  cases ending with
  | done k => exact absurd rfl (h k)
  | failed e => simp
  | stalled => simp

/-- … and when it is, the wait for the second one begins on the link as it was. -/
theorem ensureIdle_of_done {k : Nat} (hr : gate.waitUntilIdle none s.first s.clock = r)
    (hr' : gate.waitUntilIdle none s.second r.clock = r') (h : r.ending = .done k) :
    (s.ensureIdle gate none).2 = ⟨r.link, r'.link, r'.clock⟩ ∧
      (∀ e, (s.ensureIdle gate none).1 = .failed e ↔ r'.ending = .failed e) ∧
      ((s.ensureIdle gate none).1 = .done () ↔ ∃ k', r'.ending = .done k') := by
  simp only [ensureIdle, waitUntilIdle, link, after, hr]
  obtain ⟨ending, l, c⟩ := r
  cases h
  dsimp only at hr' ⊢
  rw [hr']
  obtain ⟨ending', l', c'⟩ := r'
  cases ending' <;> simp

end Gates

/-- **Every wait is accounted for.** What counts as an answer is said by the line alone. A wait on a
link is a run of moments, of which the last one has the link and the time that the wait leaves; how
it ends is said by the answers heard until then, and at every moment on the way there the books
agree. Of two devices the second one is left alone until the first one is idle. -/
theorem every_wait_is_accounted_for (settings : IdleSettings) :
    (∀ line reply, IdleReply.ofLine? line = some reply ↔ line ≠ idleCommand ∧
      ∃ e, Line.parse line = .ok (.event e) ∧
        Text.foldCase e.payload = reply.payload.toList) ∧
    (∀ (l : ScriptedLink) (c : Clock),
      let gate := ofSettings settings
      let r := gate.waitUntilIdle none l c
      ∃ m, gate.Reaches (.start l c.now) m ∧ m.next = .stop r.ending ∧ m.link = r.link ∧
        m.now = r.clock.now ∧ Ended (max 1 settings.maxAttempts) l r.ending m ∧
        ∀ m', gate.Reaches (.start l c.now) m' →
          gate.Reaches m' m ∧ Accounted gate l c.now m') ∧
    (∀ s : Session ScriptedLink,
      let gate := ofSettings settings
      let r := gate.waitUntilIdle none s.first s.clock
      let r' := gate.waitUntilIdle none s.second r.clock
      ((∀ k, r.ending ≠ .done k) →
        (s.ensureIdle gate none).2 = ⟨r.link, s.second, r.clock⟩ ∧
          (∀ e, (s.ensureIdle gate none).1 = .failed e ↔ r.ending = .failed e) ∧
          (s.ensureIdle gate none).1 ≠ .done ()) ∧
      (∀ k, r.ending = .done k →
        (s.ensureIdle gate none).2 = ⟨r.link, r'.link, r'.clock⟩ ∧
          (∀ e, (s.ensureIdle gate none).1 = .failed e ↔ r'.ending = .failed e) ∧
          ((s.ensureIdle gate none).1 = .done () ↔ ∃ k', r'.ending = .done k'))) := by
  refine ⟨fun line reply => IdleReply.ofLine?_eq_some_iff, fun l c => ?_,
    fun s => ⟨ensureIdle_of_not_done rfl, fun k => ensureIdle_of_done rfl rfl⟩⟩
  intro gate r
  obtain ⟨m, hreach, hend, hlink, hnow⟩ := reaches_waitUntilIdle gate l c
  have hstart := going_start gate l c.now
  -- steps are deterministic, so any moment that is reached is on the way to the last one
  refine ⟨m, hreach, hend, hlink, hnow, (hstart.reaches hreach).ended hend, fun m' hreach' => ?_⟩
  exact ⟨reaches_of_stop hreach hend hreach', (hstart.reaches hreach').accounted⟩

/-- A device that is busy when it is asked, and boots before it is asked again. -/
def drowsyDevice : ScriptedLink :=
  { name := "ttyACM0"
    replies := [(idleCommand, [["[1] <inf> sut: idle false"],
      ["*** Booting ***", "[2] <inf> sut: Idle True"]])] }

def threeAttempts : IdleSettings :=
  { maxAttempts := 3, retryDelayMs := 100 }

theorem drowsy_device_takes_one_pause :
    let r := (ofSettings threeAttempts).waitUntilIdle none drowsyDevice {}
    r.ending = .done 2 ∧ r.link.written = ["idle", "idle"] ∧ r.clock.now = 100 := by
  intro r
  have hbusy : IdleReply.busy.Batch ["[1] <inf> sut: idle false"] :=
    ⟨[], _, rfl, by simp, by decide⟩
  have hidle : IdleReply.idle.Batch ["*** Booting ***", "[2] <inf> sut: Idle True"] :=
    ⟨["*** Booting ***"], _, rfl, by simp; decide, by decide⟩
  have hleft : [["[1] <inf> sut: idle false"]].length < (ofSettings threeAttempts).maxAttempts := by
    decide
  obtain ⟨l', c', hask, -⟩ := ask_done (ofSettings threeAttempts) 0 (l := drowsyDevice) (c := {})
    ⟨rfl, rfl⟩ rfl hleft (List.forall_mem_singleton.2 hbusy) hidle
  have hending : r.ending = .done 2 := congrArg Settled.ending hask
  obtain ⟨m, hreach, -, hlink, hnow, hended, hall⟩ :=
    (every_wait_is_accounted_for threeAttempts).2.1 drowsyDevice {}
  obtain ⟨-, hbooks⟩ := hall m hreach
  obtain ⟨hasked, -⟩ := hended.of_done 2 hending
  refine ⟨hending, ?_, ?_⟩
  · rw [← hlink, hbooks.written, hasked]
    rfl
  · rw [← hnow, hbooks.time, hasked]
    simp [drowsyDevice, ofSettings, threeAttempts]

end Session

end BoardBench
