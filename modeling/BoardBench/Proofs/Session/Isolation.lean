import BoardBench.Proofs.BoardTest.History
import BoardBench.Proofs.Session.Board
import BoardBench.Proofs.Session.Order
import BoardBench.Proofs.Session.Queue

/-!
# Isolation — a gate keeps a phase from what came before it

A scripted link is a queue: replies go in at the end and lines are read off the front, so that
`ScriptedLink.Serves l commands items l'` has all there is to say about what happened on it. At a
gate the items are read up to the first idle answer (`ScriptedLink.Admitted`). If nothing on the
queue was an answer, that one has come in reply to a question, and what was there before is gone:
**the log of the next phase is made of what the device sent behind its idle answer**
(`Isolated`).

In a whole test the queue has no answer on it at any gate if each question is answered once and
nothing else is. So much is counted: a gate reads as many answers as it asks questions, and a phase
asks none.

A gate does not know which answer belongs to which question, it takes what comes first. So an answer
that was on the queue before would open the gate too early, and whatever the device sends from then
on would get into the log of the phase. The hypothesis that the queue is `Silent` excludes this, and
it cannot be done without: it is the statement about a single gate that has it, and the one about a
whole test proves it of every gate.

There the count does it. Between two gates a link may have any noise on its queue, but the numbers
of answers given, read and left are linked by an equation (`AnswersOnce.length_repliesIn`), in which
everything but the answers left is known.
-/

set_option autoImplicit false

namespace BoardBench

/-! ## At a gate -/

namespace ScriptedLink

/-- A link was let through a gate: the device was asked some times, and the last of its answers,
up to which the queue was read, was the first that said it is idle. -/
def Admitted (l : ScriptedLink) (busy : Nat) (l' : ScriptedLink) : Prop :=
  ∃ front decisive, l.Serves (List.replicate (busy + 1) idleCommand) (front ++ [decisive]) l' ∧
    repliesIn front = List.replicate busy .busy ∧ decisive.reply? = some .idle

end ScriptedLink

namespace IdleGate

open ScriptedLink

variable {gate : IdleGate} {limit : Limit} {l : ScriptedLink} {c : Clock}

/-- The answers among what came of a read. -/
theorem repliesIn_ofOutcome (outcome : Except LinkError String) :
    repliesIn (Incoming.ofOutcome? outcome).toList = (IdleReply.ofOutcome? outcome).toList := by
  cases outcome with
  | ok line => exact filterMap_snoc Incoming.reply? [] (.line line)
  | error e => cases e <;> rfl

/-- The queue was read up to the first answer. -/
def Answered (l : ScriptedLink) (reply : IdleReply) (l' : ScriptedLink) : Prop :=
  ∃ noise decisive, l.Serves [] (noise ++ [decisive]) l' ∧ repliesIn noise = [] ∧
    decisive.reply? = some reply

/-- What is read before the answer and is none makes no difference. -/
theorem Answered.behind {m l' : ScriptedLink} {d : Nat} {outcome : Except LinkError String}
    {reply : IdleReply} (hread : Link.read l = .after d outcome m)
    (hnone : IdleReply.ofOutcome? outcome = none) (h : Answered m reply l') :
    Answered l reply l' := by
  obtain ⟨noise, decisive, hserves, hnoise, hdecisive⟩ := h
  refine ⟨(Incoming.ofOutcome? outcome).toList ++ noise, decisive, ?_, ?_, hdecisive⟩
  · rw [List.append_assoc]
    exact (serves_of_read hread).trans hserves
  · rw [repliesIn_append, repliesIn_ofOutcome, hnone, hnoise]
    rfl

theorem answered_awaitReply {reply : IdleReply}
    (h : (awaitReply limit l c).ending = .done reply) :
    Answered l reply (awaitReply limit l c).link := by
  fun_induction awaitReply limit l c with
  | case1 l c line rest c' hread reply' hreply =>
    cases h
    obtain ⟨d, hread, -⟩ := read_of_readBy_done hread
    exact ⟨[], .line line, serves_of_read hread, rfl, hreply⟩
  | case2 l c line rest c' hread hnone ih =>
    obtain ⟨d, hread, -⟩ := read_of_readBy_done hread
    exact (ih h).behind hread hnone
  | case3 l c e rest c' hread he ih =>
    obtain ⟨d, hread, -⟩ := read_of_readBy_failed hread
    exact (ih h).behind hread rfl
  | case4 l c e rest c' hread he => cases h
  | case5 l c rest c' hread => cases h

/-- An idle answer to the first question. -/
theorem admitted_of_idle {m l' : ScriptedLink} (hwrite : Link.write idleCommand l = (.ok (), m))
    (h : Answered m .idle l') : l.Admitted 0 l' := by
  obtain ⟨noise, decisive, hserves, hnoise, hdecisive⟩ := h
  exact ⟨noise, decisive, (serves_of_write hwrite).trans hserves, hnoise, hdecisive⟩

/-- A busy answer in front of those to the questions behind this one. -/
theorem admitted_of_busy {m n l' : ScriptedLink} {busy : Nat}
    (hwrite : Link.write idleCommand l = (.ok (), m)) (h : Answered m .busy n)
    (hrest : n.Admitted busy l') : l.Admitted (busy + 1) l' := by
  obtain ⟨noise, decisive, hserves, hnoise, hdecisive⟩ := h
  obtain ⟨front, last, hrest, hfront, hlast⟩ := hrest
  refine ⟨noise ++ [decisive] ++ front, last, ?_, ?_, hlast⟩
  · rw [List.append_assoc]
    exact ((serves_of_write hwrite).trans hserves).trans hrest
  · rw [repliesIn_append, hfront, repliesIn, filterMap_snoc, hdecisive]
    exact congrArg (· ++ _ ++ _) hnoise

/-- Question by question, up to the first idle answer. -/
theorem admitted_ask {left asked k : Nat} (h : (gate.ask limit left asked l c).ending = .done k) :
    ∃ busy, l.Admitted busy (gate.ask limit left asked l c).link := by
  induction left generalizing asked l c with
  | zero => cases h
  | succ left ih =>
    have hwrite : Link.write idleCommand l = (.ok (), l.write idleCommand) := rfl
    rw [ask_succ, hwrite] at h ⊢
    dsimp only at h ⊢
    cases hend : (awaitReply limit (l.write idleCommand) c).ending with
    | failed e => simp [hend] at h
    | stalled => simp [hend] at h
    | done reply =>
      have hanswer := answered_awaitReply hend
      rw [hend] at h
      cases reply with
      | idle => exact ⟨0, admitted_of_idle hwrite hanswer⟩
      | busy =>
        dsimp only at h ⊢
        split at h
        · rename_i hlast
          obtain ⟨busy, hrest⟩ := ih h
          rw [if_pos hlast]
          exact ⟨busy + 1, admitted_of_busy hwrite hanswer hrest⟩
        · rename_i hmore
          rw [if_neg hmore]
          split at h
          · obtain ⟨busy, hrest⟩ := ih h
            exact ⟨busy + 1, admitted_of_busy hwrite hanswer hrest⟩
          · cases h

end IdleGate

/-! ## From one gate through the phase behind it -/

/-- A link came through a gate and the phase behind it, from `l` over `m` to `l'`, and gave the
phase the events `es`. The answer that opened the gate has come in reply to a question, and all that
was on the queue before is read off with it, in front of it. The phase reads what is queued behind
that answer, and then the reply to the start command. -/
def Isolated (b : Bracket) (l m l' : ScriptedLink) (es : List Event) : Prop :=
  ∃ (busy : Nat) (answered : List Incoming) (decisive : Incoming) (behind : List Incoming)
      (lines : List String),
    queued (l.replies.given (List.replicate (busy + 1) idleCommand)) =
      answered ++ decisive :: behind ∧
    repliesIn answered = List.replicate busy .busy ∧ decisive.reply? = some .idle ∧
    l.Serves (List.replicate (busy + 1) idleCommand) (l.pending ++ answered ++ [decisive]) m ∧
    m.pending = behind ∧
    m.Serves [b.start] (lines.map .line) l' ∧
    lines.map .line ++ l'.pending =
      behind ++ (m.replies.next b.start).1.map .line ∧
    (lines.filter b.keeps).map Line.parse = es.map fun e => .ok (.event e)

theorem Streamed.serves {b : Bracket} {l l' : ScriptedLink} {lines : List String}
    {es : List Event} (h : Streamed b l lines es l') :
    l.Serves [b.start] (lines.map .line) l' := by
  obtain ⟨sent, hwrite, hreads⟩ := h.reads
  exact (ScriptedLink.serves_of_write hwrite).trans (ScriptedLink.serves_of_readsLines hreads)

namespace ScriptedLink

/-- No answer is on the queue. -/
def Silent (l : ScriptedLink) : Prop :=
  repliesIn l.pending = []

/-- **A gate that is passed on a link without an answer on its queue isolates the phase.** -/
theorem Admitted.isolated {b : Bracket} {l m l' : ScriptedLink} {busy : Nat} {lines : List String}
    {es : List Event} (hsilent : l.Silent) (h : l.Admitted busy m)
    (hphase : Streamed b m lines es l') : Isolated b l m l' es := by
  obtain ⟨front, decisive, hserves, hfront, hdecisive⟩ := h
  have hfifo := hserves.pending
  rw [List.append_assoc, List.singleton_append] at hfifo
  rcases append_eq_append_cons hfifo.symm with hmem | ⟨answered, rfl, hqueued⟩
  · -- the answer is not one of the entries that were there before
    have hnone := List.filterMap_eq_nil_iff.1 hsilent decisive hmem
    rw [hdecisive] at hnone
    cases hnone
  · rw [repliesIn_append, show repliesIn l.pending = [] from hsilent, List.nil_append] at hfront
    refine ⟨busy, answered, decisive, m.pending, lines, hqueued, hfront, hdecisive, hserves, rfl,
      hphase.serves, ?_, hphase.heard⟩
    rw [hphase.serves.pending]
    simp [queued, Replies.given]

end ScriptedLink

namespace Session

open ScriptedLink

variable {gate : IdleGate} {settings : PhaseSettings} {limit : Limit} {b : Bracket}
  {s s' : Session ScriptedLink} {log : List Event}

theorem admitted_waitUntilIdle {side : Side} {k : Nat}
    (h : s.waitUntilIdle gate limit side = (.done k, s')) :
    (∃ busy, (s.link side).Admitted busy (s'.link side)) ∧
      ∀ t, t ≠ side → s'.link t = s.link t := by
  obtain ⟨hend, rfl⟩ := Prod.mk.inj h
  refine ⟨?_, fun t ht => ?_⟩
  · rw [link_after, if_pos rfl]
    exact IdleGate.admitted_ask hend
  · rw [link_after, if_neg ht]

theorem admitted_ensureIdle (h : s.ensureIdle gate limit = (.done (), s')) (side : Side) :
    ∃ busy, (s.link side).Admitted busy (s'.link side) := by
  unfold ensureIdle at h
  split at h
  · cases h
  · cases h
  · rename_i s₁ hfirst
    split at h
    · cases h
    · cases h
    · rename_i s₂ hsecond
      cases h
      obtain ⟨⟨busy, hbusy⟩, hother⟩ := admitted_waitUntilIdle hfirst
      obtain ⟨⟨busy', hbusy'⟩, hother'⟩ := admitted_waitUntilIdle hsecond
      cases side with
      | first =>
        rw [hother' .first (by decide)]
        exact ⟨busy, hbusy⟩
      | second =>
        rw [← hother .second (by decide)]
        exact ⟨busy', hbusy'⟩

theorem streamed_runPhase (h : s.runPhase settings limit b = (.done log, s')) :
    ∃ es : Side → List Event, Interleaving (es .first) (es .second) log ∧
      ∀ side, ∃ lines, Streamed b (s.link side) lines (es side) (s'.link side) := by
  obtain ⟨p, q, hp, hreach, hcomplete, rfl, hfirst, hsecond⟩ := reaches_of_runPhase h
  obtain ⟨es, fs, lines, lines', hmix, -, hes, hfs⟩ :=
    Phase.mergesStreams_of_isComplete hp hreach hcomplete
  refine ⟨Side.pick es fs, hmix, fun side => ?_⟩
  cases side with
  | first =>
    show ∃ lines, Streamed b s.first lines es s'.first
    rw [hfirst]
    exact ⟨lines, hes⟩
  | second =>
    show ∃ lines, Streamed b s.second lines fs s'.second
    rw [hsecond]
    exact ⟨lines', hfs⟩

end Session

/-! ## In a whole test -/

namespace ScriptedLink

variable {l l' : ScriptedLink}

theorem silent_iff : l.Silent ↔ (repliesIn l.pending).length = 0 :=
  List.length_eq_zero_iff.symm

/-- As many answers are read at a gate as questions are asked. -/
theorem Silent.gate {busy : Nat} (hl : l.Silent) (h : l.Admitted busy l')
    (honce : l.AnswersOnce l') : l'.Silent := by
  obtain ⟨front, decisive, hserves, hfront, hdecisive⟩ := h
  have hcount := honce.length_repliesIn hserves
  have hread : (repliesIn (front ++ [decisive])).length = busy + 1 := by
    rw [repliesIn, filterMap_snoc, hdecisive, show front.filterMap Incoming.reply? = _ from hfront]
    simp
  rw [hread, silent_iff.1 hl, List.count_replicate_self] at hcount
  exact silent_iff.2 (by omega)

/-- No answer comes in a phase. -/
theorem Silent.phase {b : Bracket} {lines : List String} {es : List Event} (hl : l.Silent)
    (hb : b.start ≠ idleCommand) (h : Streamed b l lines es l') (honce : l.AnswersOnce l') :
    l'.Silent := by
  have hcount := honce.length_repliesIn h.serves
  rw [silent_iff.1 hl, List.count_singleton, if_neg (by simpa using hb)] at hcount
  exact silent_iff.2 (by omega)

end ScriptedLink

namespace Session

open ScriptedLink

section Calls

variable {c : Config} {limit : Limit} {y : Exchange (Session ScriptedLink)}
  {made : List (Exchange (Session ScriptedLink))} {s s' : Session ScriptedLink} {side : Side}

theorem step_of_activity {σ α : Type} {step : Session σ → Ending BenchError α × Session σ}
    {s s' : Session σ} {outcome : Option (Except BenchError α)}
    (h : activity step s = (outcome, s')) : step s = (.ofOutcome outcome, s') := by
  unfold activity at h
  rcases hstep : step s with ⟨_ | _ | _, s₁⟩
  · rw [hstep] at h
    cases h
    rfl
  · rw [hstep] at h
    cases h
    rfl
  · rw [hstep] at h
    cases h
    rfl

theorem ensureIdle_of_call {e : Ending BenchError Unit} (hy : y.Of (executor c limit))
    (hcall : y.call = .idle e) :
    y.before.ensureIdle (IdleGate.ofSettings c.idle) limit = (e, y.after) := by
  rw [Exchange.Of, hcall] at hy
  obtain ⟨outcome, hrun, rfl⟩ := hy
  exact step_of_activity hrun

theorem runPhase_of_call {b : Bracket} {e : Ending BenchError (List Event)}
    (hy : y.Of (executor c limit)) (hcall : y.call = .phase b e) :
    y.before.runPhase c.phase limit b = (e, y.after) := by
  rw [Exchange.Of, hcall] at hy
  obtain ⟨outcome, hrun, rfl⟩ := hy
  exact step_of_activity hrun

theorem serves_of_call (hy : y.Of (executor c limit)) (side : Side) :
    ∃ commands items, (y.before.link side).Serves commands items (y.after.link side) := by
  cases hcall : y.call with
  | idle e =>
    obtain ⟨traffic, hcarries, -⟩ :=
      carries_ensureIdle (IdleGate.ofSettings c.idle) limit y.before
    rw [ensureIdle_of_call hy hcall] at hcarries
    exact ⟨_, _, serves_of_wire (hcarries side)⟩
  | phase b e =>
    obtain ⟨traffic, hcarries, -⟩ := carries_runPhase c.phase limit b y.before
    rw [runPhase_of_call hy hcall] at hcarries
    exact ⟨_, _, serves_of_wire (hcarries side)⟩

theorem serves_of_history (h : (executor c limit).History s made s') (side : Side) :
    ∃ commands items, (s.link side).Serves commands items (s'.link side) := by
  induction h with
  | nil s => exact ⟨[], [], rfl⟩
  | cons hy _ ih =>
    obtain ⟨commands, items, hfront⟩ := serves_of_call hy side
    obtain ⟨more, others, hback⟩ := ih
    exact ⟨_, _, hfront.trans hback⟩

theorem silent_of_call (hy : y.Of (executor c limit)) (hpassed : BoardTest.Passed y.call)
    (honce : (y.before.link side).AnswersOnce (y.after.link side))
    (hs : (y.before.link side).Silent) : (y.after.link side).Silent := by
  rcases hpassed with hcall | ⟨b, log, hb, hcall⟩
  · obtain ⟨busy, hadmitted⟩ := admitted_ensureIdle (ensureIdle_of_call hy hcall) side
    exact hs.gate hadmitted honce
  · obtain ⟨es, -, hstreams⟩ := streamed_runPhase (runPhase_of_call hy hcall)
    obtain ⟨lines, hstreamed⟩ := hstreams side
    have hstart : ∀ b ∈ BoardTest.phases, b.start ≠ idleCommand := by decide
    exact hs.phase (hstart b hb) hstreamed honce

/-- **The queue has no answer on it at any gate**, if it had none at first and the device answers
each question once. -/
theorem silent_of_history (h : (executor c limit).History s made s')
    (hpassed : ∀ y ∈ made, BoardTest.Passed y.call)
    (honce : (s.link side).AnswersOnce (s'.link side)) (hs : (s.link side).Silent) :
    (s'.link side).Silent := by
  induction h with
  | nil s => exact hs
  | cons hy hrest ih =>
    obtain ⟨hpassed, hothers⟩ := List.forall_mem_cons.1 hpassed
    obtain ⟨_, _, hfront⟩ := serves_of_call hy side
    obtain ⟨_, _, hback⟩ := serves_of_history hrest side
    obtain ⟨hfirst, honce⟩ := honce.split hfront hback
    exact ih hothers honce (silent_of_call hy hpassed hfirst hs)

end Calls

/-- What is on the queue when a phase is over is there when the next gate begins. -/
theorem before_of_getLast? {x : Executor (Activity ScriptedLink)} {s s' : Session ScriptedLink}
    {earlier back : List (Exchange (Session ScriptedLink))}
    {g z : Exchange (Session ScriptedLink)} (h : x.History s (earlier ++ g :: back) s')
    (hz : earlier.getLast? = some z) : z.after = g.before := by
  obtain ⟨init, rfl⟩ := List.getLast?_eq_some_iff.1 hz
  rw [List.append_assoc] at h
  exact h.split.2.2.uncons.1.symm

/-- An answer is an event that says whether the device is idle. -/
theorem ofLine?_ne_none_iff {line : String} : IdleReply.ofLine? line ≠ none ↔
    ∃ e, Line.parse line = .ok (.event e) ∧ (Text.foldCase e.payload = "idle true".toList ∨
      Text.foldCase e.payload = "idle false".toList) := by
  constructor
  · intro h
    obtain ⟨reply, hreply⟩ := Option.ne_none_iff_exists'.1 h
    obtain ⟨-, e, hparse, hpayload⟩ := IdleReply.ofLine?_eq_some_iff.1 hreply
    cases reply with
    | idle => exact ⟨e, hparse, .inl hpayload⟩
    | busy => exact ⟨e, hparse, .inr hpayload⟩
  · rintro ⟨e, hparse, hpayload⟩ hnone
    have hne : line ≠ idleCommand := by
      rintro rfl
      cases hparse
    rcases hpayload with hpayload | hpayload
    · have hidle : IdleReply.ofLine? line = some .idle :=
        IdleReply.ofLine?_eq_some_iff.2 ⟨hne, e, hparse, hpayload⟩
      cases hnone.symm.trans hidle
    · have hbusy : IdleReply.ofLine? line = some .busy :=
        IdleReply.ofLine?_eq_some_iff.2 ⟨hne, e, hparse, hpayload⟩
      cases hnone.symm.trans hbusy

/-- **The gate isolates a phase from what came before it.** If a gate is passed and then a phase is
run to its end, its log mixes the events of the two links, and a link that had no answer on its
queue at the gate gave none of what was on it: its events come from the lines behind the idle answer
in the replies to the questions and from the reply to the start command, in this order. In a test
with the gate on, each phase has such a gate right before it, at which the queue is as the phase
before left it, and which isolates the phase on a link whose device answers each question once and
gives no answer otherwise. -/
theorem gates_isolate_phases :
    (∀ line, IdleReply.ofLine? line ≠ none ↔ ∃ e, Line.parse line = .ok (.event e) ∧
      (Text.foldCase e.payload = "idle true".toList ∨
        Text.foldCase e.payload = "idle false".toList)) ∧
    (∀ (gate : IdleGate) (settings : PhaseSettings) (limit limit' : Limit) (b : Bracket)
      (s s' s'' : Session ScriptedLink) (log : List Event),
      s.ensureIdle gate limit = (.done (), s') →
      s'.runPhase settings limit' b = (.done log, s'') →
      ∃ es : Side → List Event, Interleaving (es .first) (es .second) log ∧
        ∀ side, (s.link side).Silent →
          Isolated b (s.link side) (s'.link side) (s''.link side) (es side)) ∧
    (∀ (c : Config) (limit : Limit) (s : Session ScriptedLink), c.idle.enabled = true →
      ∃ made outcome s', s.runTests c limit = (.ofOutcome outcome, s') ∧
        (BoardTest.run (executor c limit).recorded c).run (s, []) = (outcome, s', made) ∧
        ∀ front y back b log, made = front ++ y :: back → y.call = .phase b (.done log) →
          ∃ (earlier : List (Exchange (Session ScriptedLink)))
            (g : Exchange (Session ScriptedLink)) (es : Side → List Event),
            front = earlier ++ [g] ∧ g.call = .idle (.done ()) ∧ g.after = y.before ∧
            (∀ z, earlier.getLast? = some z →
              z.after = g.before ∧ ∃ b' log', z.call = .phase b' (.done log')) ∧
            Interleaving (es .first) (es .second) log ∧
            ∀ side, (s.link side).Silent → (s.link side).AnswersOnce (s'.link side) →
              Isolated b (g.before.link side) (y.before.link side) (y.after.link side)
                (es side)) := by
  refine ⟨fun line => ofLine?_ne_none_iff, ?_, ?_⟩
  · intro gate settings limit limit' b s s' s'' log hgate hphase
    obtain ⟨es, hmix, hstreams⟩ := streamed_runPhase hphase
    refine ⟨es, hmix, fun side hsilent => ?_⟩
    obtain ⟨busy, hadmitted⟩ := admitted_ensureIdle hgate side
    obtain ⟨lines, hstreamed⟩ := hstreams side
    exact hadmitted.isolated hsilent hstreamed
  · intro c limit s hidle
    -- The history has each call with the session before and after it; the conclusion has the plan
    -- that the calls follow. Both are of the same run.
    obtain ⟨made, outcome, s', hplain, hwork, hhistory⟩ :=
      BoardTest.history_run (executor c limit) c s []
    obtain ⟨made', outcome', s₁, hplain', hwork', hend⟩ :=
      BoardTest.makes_run (c := c) (executor c limit) s []
    rw [hwork] at hwork'
    cases hwork'
    refine ⟨made, outcome, s', by rw [runTests, carryOut_eq, hplain], hwork, ?_⟩
    intro front y back b log hmade hy
    obtain ⟨-, earlier, g, rfl, hg, hpassed, hlast⟩ :=
      BoardTest.gate_before_phase hidle hend (by rw [hy]; rfl) hmade
    subst hmade
    rw [List.append_assoc, List.singleton_append] at hhistory
    obtain ⟨hearlier, hgate, hrest⟩ := hhistory.split
    obtain ⟨hbefore, hphase, -⟩ := hrest.uncons
    obtain ⟨es, hmix, hstreams⟩ := streamed_runPhase (runPhase_of_call hphase hy)
    refine ⟨earlier, g, es, rfl, hg, hbefore.symm,
      fun z hz => ⟨before_of_getLast? hhistory hz, hlast z hz⟩, hmix, ?_⟩
    intro side hsilent honce
    obtain ⟨_, _, hfront⟩ := serves_of_history hearlier side
    obtain ⟨_, _, htail⟩ := serves_of_history (.cons hgate hrest) side
    -- a link without an answer on its queue keeps that through every exchange before the gate,
    -- since each of them ends with the answer that it asked for
    have hsilent' : (g.before.link side).Silent :=
      silent_of_history hearlier hpassed (honce.split hfront htail).1 hsilent
    obtain ⟨busy, hadmitted⟩ := admitted_ensureIdle (ensureIdle_of_call hgate hg) side
    obtain ⟨lines, hstreamed⟩ := hstreams side
    rw [← hbefore] at hadmitted
    exact hadmitted.isolated hsilent' hstreamed

/-- A test that goes through ends with the phase of the last subsystem. -/
theorem exists_last_phase {c : Config} {limit : Limit} {s s' : Session ScriptedLink}
    {made : List (Exchange (Session ScriptedLink))} {outcome : Option (Except BenchError BoardTest)}
    {t : BoardTest} (hdone : (.ofOutcome outcome : Ending BenchError BoardTest) = .done t)
    (h : (BoardTest.run (executor c limit).recorded c).run (s, []) = (outcome, s', made)) :
    ∃ front y log, made = front ++ [y] ∧
      y.call = .phase Subsystem.can.bracket (.done log) := by
  obtain ⟨made', outcome', s₁, -, hwork, hend⟩ :=
    BoardTest.makes_run (c := c) (executor c limit) s []
  rw [h] at hwork
  cases hwork
  rw [hdone] at hend
  have hlast : (BoardTest.plan c [Identity.bracket] ++
      BoardTest.plan c (Subsystem.executionOrder.map Subsystem.bracket)).getLast? =
        some (.phase Subsystem.can.bracket) := by
    unfold BoardTest.plan BoardTest.gate
    split <;> rfl
  cases hend with
  | passed hplan hlogs hid =>
    rw [← hplan.1, List.map_map, List.getLast?_map] at hlast
    obtain ⟨y, hy, hrequest⟩ := Option.map_eq_some_iff.1 hlast
    obtain ⟨front, rfl⟩ := List.getLast?_eq_some_iff.1 hy
    rcases Call.of_ending_done (hplan.2 y.call (by simp)) with hcall | ⟨b, log, hcall⟩
    · rw [Function.comp_apply, hcall] at hrequest
      cases hrequest
    · rw [Function.comp_apply, hcall] at hrequest
      cases hrequest
      exact ⟨front, y, log, rfl, hcall⟩
  | cut hcut hid => exact absurd rfl hcut.ne_done

/-- A phase that is run to its end within some bound, as it can be computed. -/
theorem runPhase_of_runWithin {settings : PhaseSettings} {limit : Limit} {b : Bracket}
    {s : Session ScriptedLink} {log : List Event} (n m : Nat) {p : Phase ScriptedLink}
    (hp : Phase.begin? (max 1 settings.channelCapacity) s.clock.now s.first s.second = some p)
    (h : (Course.runWithin b (max 1 settings.channelCapacity) (s.horizon settings limit) n m
      (s.course p)).any (fun r => r.1 = .complete ∧ r.2.phase.events = log) = true) :
    ∃ s', s.runPhase settings limit b = (.done log, s') := by
  have hclose := Course.run_satisfies n m h
  rcases hrun : (s.course p).run b (max 1 settings.channelCapacity) (s.horizon settings limit) with
    ⟨close, c⟩
  rw [hrun] at hclose
  obtain ⟨rfl, rfl⟩ := of_decide_eq_true hclose
  exact ⟨_, runPhase_of_complete hp hrun⟩

/-! ### Stale lines, and a test of two boards that have nothing to report -/

/-- On the first link there are lines of an earlier phase, and its device sends a line behind its
idle answer. -/
def stale : Session ScriptedLink where
  first :=
    { name := "ttyACM0"
      pending := [.line "[8] <inf> sut: can stop", .line "[9] <inf> sut: late"]
      replies := [
        (idleCommand, [["idle", "[1] <inf> sut: idle false"],
          ["[2] <inf> sut: Idle True", "[2] <inf> sut: ready"]]),
        ("can start", [["can start", "[3] <inf> sut: x", "[4] <inf> sut: can stop"]])] }
  second :=
    { name := "ttyACM1"
      replies := [(idleCommand, [["[1] <inf> tester: idle true"]]),
        ("can start", [["[3] <inf> tester: y", "[4] <inf> tester: can stop"]])] }

def staleLog : List Event :=
  [⟨2, .inf, "sut", "ready"⟩, ⟨3, .inf, "sut", "x"⟩, ⟨4, .inf, "sut", "can stop"⟩,
    ⟨3, .inf, "tester", "y"⟩, ⟨4, .inf, "tester", "can stop"⟩]

/-- The session behind the gate. -/
def admitted : Session ScriptedLink :=
  (stale.ensureIdle ⟨2, 100⟩ none).2

theorem ensureIdle_stale : stale.ensureIdle ⟨2, 100⟩ none = (.done (), admitted) :=
  Prod.ext (by decide +kernel) rfl

/-- The phase that begins there. -/
def admittedPhase : Phase ScriptedLink where
  first := ⟨admitted.first, .ready⟩
  second := ⟨admitted.second, .ready⟩
  now := admitted.clock.now

theorem runPhase_admitted :
    ∃ s', admitted.runPhase {} none Subsystem.can.bracket = (.done staleLog, s') :=
  runPhase_of_runWithin 100 100 (p := admittedPhase) rfl (by decide +kernel)

def silence : Traffic where
  seen _ := []
  carried _ _ hx := nomatch hx

/-- Two boards with nothing to report but their ids, before the test. -/
def quietBoards : Session ScriptedLink :=
  (benchOf silence).clearInput.2

theorem runTests_quietBoards : ∃ t s', quietBoards.runTests {} none = (.done t, s') := by
  have hsut : silence.Scripted .sut "00aa11bb" (silence.script .sut "00aa11bb") :=
    silence.scripted_script .sut (c := 'b') rfl (by decide)
  have htester : silence.Scripted .tester "99cc" (silence.script .tester "99cc") :=
    silence.scripted_script .tester (c := 'c') rfl (by decide)
  have hends : ∀ side, ∀ b ∈ BoardTest.phases, b.Ends (benchScript silence side b) := by
    intro side b hb
    cases side with
    | first => exact hsut.ends hb
    | second => exact htester.ends hb
  obtain ⟨time, hsutId⟩ := hsut.identity
  obtain ⟨time', htesterId⟩ := htester.identity
  obtain ⟨t, s', hrun, -⟩ := runTests_script (c := {}) (by decide) (by decide) hends
    (fun log hmix => ⟨_, Identity.ofLog_of_frames hsutId htesterId hmix⟩)
    (clearInput_armed (answers_benchOf silence)).2
  exact ⟨t, s', hrun⟩

theorem proper_quietBoards (side : Side) : (quietBoards.link side).replies.Proper := by
  cases side with
  | first => exact Replies.proper_of_forall (by decide) (by decide +kernel)
  | second => exact Replies.proper_of_forall (by decide) (by decide +kernel)

/-- The stale lines stay out of the log, and what was sent behind the idle answer gets in; and in a
whole test of two other boards, the last phase is isolated on both links. -/
theorem stale_lines_stay_out :
    (∃ (s' : Session ScriptedLink) (es : Side → List Event),
      Interleaving (es .first) (es .second) staleLog ∧
      ∀ side, Isolated Subsystem.can.bracket (stale.link side) (admitted.link side)
        (s'.link side) (es side)) ∧
    ∃ g y : Exchange (Session ScriptedLink), g.after = y.before ∧
      ∃ es : Side → List Event, ∀ side, Isolated Subsystem.can.bracket (g.before.link side)
        (y.before.link side) (y.after.link side) (es side) := by
  constructor
  · obtain ⟨s', hphase⟩ := runPhase_admitted
    obtain ⟨es, hmix, hisolated⟩ :=
      gates_isolate_phases.2.1 _ _ none none _ _ _ _ _ ensureIdle_stale hphase
    refine ⟨s', es, hmix, fun side => hisolated side ?_⟩
    cases side with
    | first =>
      show repliesIn stale.first.pending = []
      decide +kernel
    | second => rfl
  · obtain ⟨made, outcome, s', hrun, hwork, hphases⟩ :=
      gates_isolate_phases.2.2 {} none quietBoards rfl
    obtain ⟨t, s₁, hdone⟩ := runTests_quietBoards
    rw [hdone] at hrun
    obtain ⟨houtcome, rfl⟩ := Prod.mk.inj hrun
    obtain ⟨front, y, log, rfl, hy⟩ := exists_last_phase houtcome.symm hwork
    obtain ⟨earlier, g, es, rfl, -, hafter, -, -, hisolated⟩ :=
      hphases front y [] _ log rfl hy
    refine ⟨g, y, hafter, es, fun side => hisolated side ?_ ?_⟩
    · cases side <;> rfl
    · obtain ⟨made', outcome', s₂, -, hwork', hhistory⟩ :=
        BoardTest.history_run (executor {} none) {} quietBoards []
      rw [hwork] at hwork'
      cases hwork'
      obtain ⟨commands, items, hserves⟩ := serves_of_history hhistory side
      exact ⟨commands, hserves.written, (proper_quietBoards side).given commands⟩

end Session

end BoardBench
