import BoardBench.Proofs.BoardTest.Calls
import BoardBench.Proofs.Sequence
import BoardBench.Proofs.Session.Transfers
import BoardBench.Session.Executor
import Mathlib.Data.List.Forall2

/-!
# Order — phases never overlap on the wire

The traffic of a board test is that of its gates and its phases, one after the other:
`Orderly c bs traffic through` says so of the traffic that some phases make, wherever it breaks off.
It has a constructor for each place where that can happen.

Two things are read off it. What is sent to a device is a beginning of what `commands` lists, which
is the questions and the start commands in turn (`Orderly.sent`). And **before a start command is
sent to either link, both links have given away the stop messages of all earlier phases and then,
with the gate on, an idle answer each** (`Orderly.guarded`).

`Orderly` is an inductive predicate with a list of phases as its index, and not a property of all
prefixes of the traffic. A test breaks off in the middle of a gate or of a phase, and what is then
known of the traffic depends on where; with a constructor for each of these places, the case
analysis of every proof below is that of the program.

That earlier phases are over when a start command is sent is said of a split of the traffic at that
command, because "before" is a matter of positions: the same line is sent again and again. What was
heard before is a part of the front, in order, so that `Cleared` needs no positions itself.

`Sends` carries this through the program. It speaks of the calls of the test and of the traffic at
the same time, as each call has a share in the traffic, and one statement about both spares the
second walk through the program.
-/

set_option autoImplicit false

namespace BoardBench

variable {c : Config} {b : Bracket} {bs : List Bracket} {traffic : List (Side × Transfer)}
  {through : Bool} {side : Side}

/-! ## Gates and phases in turn -/

/-- What passes at the gate before a phase, if there is one. -/
def AtGate (c : Config) (traffic : List (Side × Transfer)) (through : Bool) : Prop :=
  if c.idle.enabled then
    ∀ side, IdleGate.Asked (max 1 c.idle.maxAttempts) (onSide side traffic) through
  else traffic = []

/-- What passes in a phase. -/
def InPhase (b : Bracket) (traffic : List (Side × Transfer)) (through : Bool) : Prop :=
  ∀ side, Ran b (onSide side traffic) through

theorem InPhase.weaken (h : InPhase b traffic true) (through : Bool) : InPhase b traffic through :=
  fun side => ⟨(h side).1, fun _ => (h side).2 rfl⟩

/-- The traffic of some phases, each behind its gate, up to where it breaks off. -/
inductive Orderly (c : Config) : List Bracket → List (Side × Transfer) → Bool → Prop
  | through : Orderly c [] [] true
  | atGate {b : Bracket} {bs : List Bracket} {gate : List (Side × Transfer)}
      (hgate : AtGate c gate false) : Orderly c (b :: bs) gate false
  | inPhase {b : Bracket} {bs : List Bracket} {gate phase : List (Side × Transfer)}
      (hgate : AtGate c gate true) (hphase : InPhase b phase false) :
      Orderly c (b :: bs) (gate ++ phase) false
  | round {b : Bracket} {bs : List Bracket} {gate phase rest : List (Side × Transfer)}
      {through : Bool} (hgate : AtGate c gate true) (hphase : InPhase b phase true)
      (hrest : Orderly c bs rest through) :
      Orderly c (b :: bs) (gate ++ (phase ++ rest)) through

/-! ## What is sent -/

/-- A number of questions that is allowed before a phase. -/
def Allowed (c : Config) (n : Nat) : Prop :=
  if c.idle.enabled then 1 ≤ n ∧ n ≤ max 1 c.idle.maxAttempts else n = 0

/-- The lines that go to a device in some phases, if it is asked so often before each of them. -/
def commands (counts : List Nat) (bs : List Bracket) : List String :=
  (counts.zip bs).flatMap fun (n, b) => List.replicate n idleCommand ++ [b.start]

theorem exists_allowed (c : Config) : ∃ n, Allowed c n := by
  unfold Allowed
  split
  · exact ⟨1, Nat.le_refl 1, Nat.le_max_left _ _⟩
  · exact ⟨0, rfl⟩

theorem exists_counts (c : Config) (bs : List Bracket) :
    ∃ counts : List Nat, counts.length = bs.length ∧ ∀ n ∈ counts, Allowed c n := by
  obtain ⟨n, hn⟩ := exists_allowed c
  refine ⟨List.replicate bs.length n, List.length_replicate, fun m hm => ?_⟩
  rw [List.eq_of_mem_replicate hm]
  exact hn

theorem AtGate.sent (h : AtGate c traffic through) (side : Side) :
    ∃ n, Allowed c n ∧ sentOn side traffic <+: List.replicate n idleCommand ∧
      (through = true → sentOn side traffic = List.replicate n idleCommand) := by
  unfold AtGate at h
  unfold Allowed
  split at h
  · rename_i henabled
    obtain ⟨k, hsent, hk, hthrough⟩ := h side
    simp only [if_pos henabled, sentOn, hsent]
    -- a gate that broke off before the first question could have asked one
    refine ⟨max 1 k, ⟨Nat.le_max_left 1 k, Nat.max_le.2 ⟨Nat.le_max_left _ _, hk⟩⟩, ?_, ?_⟩
    · refine ⟨List.replicate (max 1 k - k) idleCommand, ?_⟩
      rw [List.replicate_append_replicate, Nat.add_sub_cancel' (Nat.le_max_right 1 k)]
    · intro ht
      rw [Nat.max_eq_right (hthrough ht).1]
  · rename_i henabled
    simp only [if_neg henabled, h]
    exact ⟨0, rfl, List.prefix_rfl, fun _ => rfl⟩

theorem InPhase.sent (h : InPhase b traffic through) (side : Side) :
    sentOn side traffic <+: [b.start] ∧ (through = true → sentOn side traffic = [b.start]) := by
  obtain ⟨hsent, hthrough⟩ := h side
  refine ⟨?_, fun ht => (hthrough ht).1⟩
  rcases hsent with hsent | hsent
  · rw [sentOn, hsent]
    exact List.nil_prefix
  · rw [sentOn, hsent]

/-- **What is sent to a device are questions and start commands in turn**, up to where it breaks
off. -/
theorem Orderly.sent (h : Orderly c bs traffic through) (side : Side) :
    ∃ counts : List Nat, counts.length = bs.length ∧ (∀ n ∈ counts, Allowed c n) ∧
      sentOn side traffic <+: commands counts bs ∧
      (through = true → sentOn side traffic = commands counts bs) := by
  induction h with
  | through => exact ⟨[], rfl, nofun, List.prefix_rfl, fun _ => rfl⟩
  | @atGate b bs gate hgate =>
    obtain ⟨n, hn, hsent, -⟩ := hgate.sent side
    obtain ⟨counts, hlength, hall⟩ := exists_counts c bs
    refine ⟨n :: counts, congrArg Nat.succ hlength, List.forall_mem_cons.2 ⟨hn, hall⟩, ?_, nofun⟩
    rw [commands, List.zip_cons_cons, List.flatMap_cons, List.append_assoc]
    exact hsent.trans (List.prefix_append _ _)
  -- in a phase that breaks off, the gate has asked all its questions, and only the start command
  -- may be missing
  | @inPhase b bs gate phase hgate hphase =>
    obtain ⟨n, hn, -, hsent⟩ := hgate.sent side
    obtain ⟨counts, hlength, hall⟩ := exists_counts c bs
    refine ⟨n :: counts, congrArg Nat.succ hlength, List.forall_mem_cons.2 ⟨hn, hall⟩, ?_, nofun⟩
    rw [commands, List.zip_cons_cons, List.flatMap_cons, sentOn_append, hsent rfl,
      List.append_assoc, List.prefix_append_right_inj]
    exact (hphase.sent side).1.trans (List.prefix_append _ _)
  | @round b bs gate phase rest through hgate hphase _ ih =>
    obtain ⟨n, hn, -, hsent⟩ := hgate.sent side
    obtain ⟨counts, hlength, hall, halong, hthrough⟩ := ih
    have hfront : sentOn side (gate ++ (phase ++ rest)) =
        List.replicate n idleCommand ++ [b.start] ++ sentOn side rest := by
      rw [sentOn_append, sentOn_append, hsent rfl, (hphase.sent side).2 rfl, List.append_assoc]
    refine ⟨n :: counts, congrArg Nat.succ hlength, List.forall_mem_cons.2 ⟨hn, hall⟩, ?_, ?_⟩
    · rw [commands, List.zip_cons_cons, List.flatMap_cons, hfront, List.prefix_append_right_inj]
      exact halong
    · intro ht
      rw [commands, List.zip_cons_cons, List.flatMap_cons, hfront, hthrough ht]
      rfl

/-! ## What has been heard before -/

/-- Some phases are over: the traffic falls into two parts, in the first of which both sides have
given away the stop messages of these phases, each behind its start command, and in the second,
with the gate on, an idle answer each. -/
def Cleared (c : Config) (earlier : List Bracket) (traffic : List (Side × Transfer)) : Prop :=
  ∃ tests answers, traffic = tests ++ answers ∧
    (∀ b ∈ earlier, ∀ side : Side, ∃ line, b.StoppedBy line ∧
      [(side, .sent b.start), (side, .got (.ok line))].Sublist tests) ∧
    (c.idle.enabled = true → ∀ side : Side, ∃ line, (side, .got (.ok line)) ∈ answers ∧
      IdleReply.ofLine? line = some .idle)

/-- Before a start command is sent to either side, all earlier phases are over. -/
def Guarded (c : Config) (bs : List Bracket) (traffic : List (Side × Transfer)) : Prop :=
  ∀ earlier b later, bs = earlier ++ b :: later →
    ∀ before side after, traffic = before ++ (side, .sent b.start) :: after →
      Cleared c earlier before

/-- Nothing but questions is sent at a gate. -/
theorem AtGate.sent_eq {line : String} (h : AtGate c traffic through)
    (hmem : (side, .sent line) ∈ traffic) : line = idleCommand := by
  obtain ⟨n, -, halong, -⟩ := h.sent side
  exact List.eq_of_mem_replicate (halong.subset (mem_sentOn.2 hmem))

/-- Nothing but the start command is sent in a phase. -/
theorem InPhase.sent_eq {line : String} (h : InPhase b traffic through)
    (hmem : (side, .sent line) ∈ traffic) : line = b.start :=
  List.mem_singleton.1 ((h.sent side).1.subset (mem_sentOn.2 hmem))

/-- At a gate that is passed both devices gave an idle answer. -/
theorem AtGate.answered (h : AtGate c traffic true) (henabled : c.idle.enabled = true)
    (side : Side) : ∃ line, (side, .got (.ok line)) ∈ traffic ∧
      IdleReply.ofLine? line = some .idle := by
  rw [AtGate, if_pos henabled] at h
  obtain ⟨k, -, -, hthrough⟩ := h side
  obtain ⟨-, line, hmem, hline⟩ := hthrough rfl
  exact ⟨line, mem_of_mem_onSide hmem, hline⟩

/-- In a phase that is run to its end both links gave away the stop message. -/
theorem InPhase.stopped (h : InPhase b traffic true) (side : Side) :
    ∃ line, b.StoppedBy line ∧
      [(side, .sent b.start), (side, .got (.ok line))].Sublist traffic := by
  obtain ⟨-, line, hsub, hline⟩ := (h side).2 rfl
  exact ⟨line, hline, (hsub.map (Prod.mk side)).trans (map_onSide_sublist side traffic)⟩

section Clear

variable {gate phase rest before after : List (Side × Transfer)} {earlier later : List Bracket}
  {b' : Bracket}

/-- A gate that is passed clears the way for what comes right behind it. -/
theorem AtGate.cleared (h : AtGate c gate true) (mid : List (Side × Transfer)) :
    Cleared c [] (gate ++ mid) := by
  refine ⟨[], gate ++ mid, rfl, nofun, fun henabled side => ?_⟩
  obtain ⟨line, hmem, hline⟩ := h.answered henabled side
  exact ⟨line, List.mem_append_left _ hmem, hline⟩

/-- One phase more that is over. -/
theorem Cleared.behind (h : Cleared c earlier before) (hphase : InPhase b phase true)
    (gate : List (Side × Transfer)) : Cleared c (b :: earlier) (gate ++ (phase ++ before)) := by
  obtain ⟨tests, answers, rfl, htests, hanswers⟩ := h
  refine ⟨gate ++ (phase ++ tests), answers, by simp only [List.append_assoc], ?_, hanswers⟩
  intro b' hb' side
  rcases List.mem_cons.1 hb' with rfl | hb'
  · obtain ⟨line, hline, hsub⟩ := hphase.stopped side
    exact ⟨line, hline, hsub.trans ((List.sublist_append_left _ _).trans
      (List.sublist_append_right _ _))⟩
  · obtain ⟨line, hline, hsub⟩ := htests b' hb' side
    exact ⟨line, hline, hsub.trans ((List.sublist_append_right _ _).trans
      (List.sublist_append_right _ _))⟩

/-- No start command is sent at a gate. -/
theorem AtGate.not_start (h : AtGate c gate through) (hb : b ∈ bs)
    (hapart : (idleCommand :: bs.map Bracket.start).Nodup) : (side, .sent b.start) ∉ gate := by
  intro hmem
  exact (List.nodup_cons.1 hapart).1 (h.sent_eq hmem ▸ List.mem_map_of_mem hb)

/-- A start command that is sent in the first round is the first one; any other is sent behind
it. -/
theorem cleared_or_behind (hgate : AtGate c gate true) (hphase : InPhase b phase through)
    (hapart : (idleCommand :: (b :: bs).map Bracket.start).Nodup)
    (hbs : b :: bs = earlier ++ b' :: later)
    (h : gate ++ (phase ++ rest) = before ++ (side, .sent b'.start) :: after) :
    Cleared c earlier before ∨ ∃ mid, before = gate ++ (phase ++ mid) ∧
      rest = mid ++ (side, .sent b'.start) :: after := by
  have hb' : b' ∈ b :: bs := hbs ▸ List.mem_append_right _ List.mem_cons_self
  rcases append_eq_append_cons h with hmem | ⟨mid, rfl, hmid⟩
  · exact absurd hmem (hgate.not_start hb' hapart)
  · rcases append_eq_append_cons hmid with hmem | ⟨mid', rfl, hrest⟩
    · cases earlier with
      | nil => exact Or.inl (hgate.cleared mid)
      | cons x earlier =>
        -- another phase would have the same start command
        rw [List.cons_append, List.cons.injEq] at hbs
        have hlater : b' ∈ bs := hbs.2 ▸ List.mem_append_right _ List.mem_cons_self
        have hnodup := (List.nodup_cons.1 (List.nodup_cons.1 hapart).2).1
        exact absurd (hphase.sent_eq hmem ▸ List.mem_map_of_mem hlater) hnodup
    · exact Or.inr ⟨mid', rfl, hrest⟩

/-- **Before a start command is sent, all earlier phases are over.** -/
theorem Orderly.guarded (h : Orderly c bs traffic through)
    (hapart : (idleCommand :: bs.map Bracket.start).Nodup) : Guarded c bs traffic := by
  induction h with
  | through =>
    intro earlier b later hbs
    cases earlier <;> cases hbs
  | @atGate b bs gate hgate =>
    rintro earlier b' later hbs before side after rfl
    have hb' : b' ∈ b :: bs := hbs ▸ List.mem_append_right _ List.mem_cons_self
    exact absurd (List.mem_append_right _ List.mem_cons_self) (hgate.not_start hb' hapart)
  | @inPhase b bs gate phase hgate hphase =>
    intro earlier b' later hbs before side after heq
    rw [← List.append_nil phase] at heq
    rcases cleared_or_behind hgate hphase hapart hbs heq with hcleared | ⟨mid, -, hnil⟩
    · exact hcleared
    · cases mid <;> cases hnil
  | @round b bs gate phase rest through hgate hphase _ ih =>
    intro earlier b' later hbs before side after heq
    rcases cleared_or_behind hgate hphase hapart hbs heq with hcleared | ⟨mid, rfl, hrest⟩
    · exact hcleared
    · cases earlier with
      | nil => exact hgate.cleared _
      | cons x earlier =>
        rw [List.cons_append, List.cons.injEq] at hbs
        obtain ⟨rfl, hbs⟩ := hbs
        have htail : (idleCommand :: bs.map Bracket.start).Nodup :=
          hapart.sublist (.cons_cons _ (List.sublist_cons_self _ _))
        -- the command is one of a later round, for which this phase is one more that is over
        exact (ih htail earlier b' later hbs mid side after hrest).behind hphase gate

end Clear

/-! ## The traffic of a board test -/

namespace Session

variable {σ α β : Type} [Link σ]

/-- The traffic of some calls, which lead from one session to another: of each call its own. -/
def Shows (s : Session σ) (made : List (Exchange (Session σ))) (s' : Session σ)
    (shares : List (List (Side × Transfer))) : Prop :=
  List.Forall₂ (fun x traffic => Carries x.before.link traffic x.after.link) made shares ∧
    Carries s.link shares.flatten s'.link

/-- Work on a session makes traffic of some kind. -/
def Sends (plain : ExceptT BenchError (Activity σ) α)
    (work : ExceptT BenchError (Steps (Session σ × List (Exchange (Session σ)))) α)
    (Q : List (Side × Transfer) → Bool → Prop) : Prop :=
  Makes plain work fun s made e s' => ∃ shares, Shows s made s' shares ∧
    Q shares.flatten e.isDone

section Sending

variable {plain : ExceptT BenchError (Activity σ) α}
  {work : ExceptT BenchError (Steps (Session σ × List (Exchange (Session σ)))) α}
  {f : α → ExceptT BenchError (Activity σ) β}
  {g : α → ExceptT BenchError (Steps (Session σ × List (Exchange (Session σ)))) β}
  {Q R P : List (Side × Transfer) → Bool → Prop}

theorem shows_nil (s : Session σ) : Shows s [] s [] :=
  ⟨.nil, carries_nil s.link⟩

theorem sends_pure {a : α} (h : Q [] true) : Sends (σ := σ) (pure a) (pure a) Q :=
  makes_pure fun s => ⟨[], shows_nil s, h⟩

theorem sends_throw {e : BenchError} (h : Q [] false) :
    Sends (σ := σ) (α := α) (throw e) (throw e) Q :=
  makes_throw fun s => ⟨[], shows_nil s, h⟩

/-- A step on the session is one call, with traffic of its own. -/
theorem sends_step {call : Ending BenchError α → Call}
    {step : Session σ → Ending BenchError α × Session σ}
    (h : ∀ s, ∃ traffic, Carries s.link traffic (step s).2.link ∧ Q traffic (step s).1.isDone) :
    Sends (ExceptT.mk (activity step)) (ExceptT.mk (recordedStep call (activity step))) Q := by
  refine makes_call fun s => ?_
  obtain ⟨traffic, hcarries, hQ⟩ := h s
  have hstep : Ending.ofOutcome (activity step s).1 = (step s).1 ∧
      (activity step s).2 = (step s).2 := by
    unfold activity
    rcases step s with ⟨_ | _ | _, s'⟩
    · exact ⟨rfl, rfl⟩
    · exact ⟨rfl, rfl⟩
    · exact ⟨rfl, rfl⟩
  rw [hstep.1, hstep.2]
  refine ⟨[traffic], ⟨.cons hcarries .nil, ?_⟩, ?_⟩
  · rw [List.flatten_singleton]
    exact hcarries
  · rw [List.flatten_singleton]
    exact hQ

theorem Sends.bind (h : Sends plain work Q) (hf : ∀ a, Sends (f a) (g a) R)
    (hdone : ∀ {ts us through}, Q ts true → R us through → P (ts ++ us) through)
    (hcut : ∀ {ts}, Q ts false → P ts false) : Sends (plain >>= f) (work >>= g) P := by
  refine Makes.bind h hf ?_ ?_ ?_
  · rintro s s' s'' front back a e ⟨shares, hfront, hQ⟩ ⟨shares', hback, hR⟩
    refine ⟨shares ++ shares', ⟨List.rel_append hfront.1 hback.1, ?_⟩, ?_⟩
    · rw [List.flatten_append]
      exact hfront.2.append hback.2
    · rw [List.flatten_append]
      exact hdone hQ hR
  · rintro s s' front error ⟨shares, hfront, hQ⟩
    exact ⟨shares, hfront, hcut hQ⟩
  · rintro s s' front ⟨shares, hfront, hQ⟩
    exact ⟨shares, hfront, hcut hQ⟩

end Sending

variable (c : Config) (limit : Limit)

theorem sends_ready : Sends (σ := σ) (BoardTest.ready (executor c limit) c)
    (BoardTest.ready (executor c limit).recorded c) (AtGate c) := by
  unfold BoardTest.ready
  split
  · rename_i henabled
    refine sends_step fun s => ?_
    obtain ⟨traffic, hcarries, hasked⟩ := carries_ensureIdle (IdleGate.ofSettings c.idle) limit s
    refine ⟨traffic, hcarries, ?_⟩
    rw [AtGate, if_pos henabled]
    exact hasked
  · rename_i henabled
    exact sends_pure (by rw [AtGate, if_neg henabled])

theorem sends_phase (b : Bracket) : Sends (σ := σ) (ExceptT.mk ((executor c limit).runPhase b))
    (ExceptT.mk ((executor c limit).recorded.runPhase b)) (InPhase b) :=
  sends_step fun s => carries_runPhase c.phase limit b s

theorem sends_identify : Sends (σ := σ) (BoardTest.identify (executor c limit))
    (BoardTest.identify (executor c limit).recorded) (InPhase Identity.bracket) := by
  refine (sends_phase c limit Identity.bracket).bind
    (R := fun traffic _ => traffic = []) (fun log => ?_) ?_ id
  · split
    · exact sends_pure rfl
    · exact sends_throw rfl
  · rintro ts us through hphase rfl
    rw [List.append_nil]
    exact hphase.weaken through

theorem sends_evaluate (sub : Subsystem) :
    Sends (σ := σ) (BoardTest.evaluate (executor c limit) c sub)
      (BoardTest.evaluate (executor c limit).recorded c sub) (InPhase sub.bracket) := by
  refine (sends_phase c limit sub.bracket).bind
    (R := fun traffic through => traffic = [] ∧ through = true) (fun log => sends_pure ⟨rfl, rfl⟩)
    ?_ id
  rintro ts us through hphase ⟨rfl, rfl⟩
  rw [List.append_nil]
  exact hphase

/-- A phase behind its gate, and what follows it. -/
theorem sends_round {b : Bracket} {bs : List Bracket} {w : ExceptT BenchError (Activity σ) α}
    {w' : ExceptT BenchError (Steps (Session σ × List (Exchange (Session σ)))) α}
    {f : α → ExceptT BenchError (Activity σ) β}
    {g : α → ExceptT BenchError (Steps (Session σ × List (Exchange (Session σ)))) β}
    (hphase : Sends w w' (InPhase b)) (hrest : ∀ a, Sends (f a) (g a) (Orderly c bs)) :
    Sends (BoardTest.ready (executor c limit) c >>= fun _ => w >>= f)
      (BoardTest.ready (executor c limit).recorded c >>= fun _ => w' >>= g)
      (Orderly c (b :: bs)) := by
  refine (sends_ready c limit).bind (R := fun traffic through =>
    ∀ gate, AtGate c gate true → Orderly c (b :: bs) (gate ++ traffic) through)
    (fun _ => hphase.bind hrest ?_ ?_) ?_ ?_
  · intro phase rest through hphase hrest gate hgate
    exact .round hgate hphase hrest
  · intro phase hphase gate hgate
    exact .inPhase hgate hphase
  · intro gate traffic through hgate hbody
    exact hbody gate hgate
  · exact .atGate

/-- What is behind an orderly test without further traffic. -/
theorem sends_then_pure {bs : List Bracket} {w : ExceptT BenchError (Activity σ) α}
    {w' : ExceptT BenchError (Steps (Session σ × List (Exchange (Session σ)))) α} {f : α → β}
    (h : Sends w w' (Orderly c bs)) :
    Sends (w >>= fun a => pure (f a)) (w' >>= fun a => pure (f a)) (Orderly c bs) := by
  refine h.bind (R := fun traffic through => traffic = [] ∧ through = true)
    (fun a => sends_pure ⟨rfl, rfl⟩) ?_ id
  rintro ts us through horderly ⟨rfl, rfl⟩
  rw [List.append_nil]
  exact horderly

theorem sends_evaluateAll (subs : List Subsystem) :
    Sends (σ := σ) (BoardTest.evaluateAll (executor c limit) c subs)
      (BoardTest.evaluateAll (executor c limit).recorded c subs)
      (Orderly c (subs.map Subsystem.bracket)) := by
  induction subs with
  | nil => exact sends_pure .through
  | cons sub subs ih =>
    exact sends_round c limit (sends_evaluate c limit sub) fun e => sends_then_pure c ih

/-- **The traffic of a board test is orderly.** -/
theorem sends_run : Sends (σ := σ) (BoardTest.run (executor c limit) c)
    (BoardTest.run (executor c limit).recorded c) (Orderly c BoardTest.phases) :=
  sends_round c limit (sends_identify c limit) fun _ =>
    sends_then_pure c (sends_evaluateAll c limit Subsystem.executionOrder)

omit [Link σ] in
theorem carryOut_eq (work : ExceptT BenchError (Activity σ) α) (s : Session σ) :
    s.carryOut work = (.ofOutcome (work.run s).1, (work.run s).2) := by
  unfold carryOut
  rcases work.run s with ⟨_ | _ | _, s'⟩ <;> rfl

/-- **Phases never overlap on the wire.** Each call of a board test has its own share of the traffic
between the sessions before and after it. Taken together, a device is sent questions and start
commands in turn, in the numbers that are allowed and up to where the test breaks off; and at every
point at which a start command is sent to either link, both links have given away the stop messages
of all earlier phases and then, with the gate on, an idle answer each. -/
theorem phases_never_overlap (c : Config) (limit : Limit) (s : Session ScriptedLink) :
    ∃ made outcome s' shares, s.runTests c limit = (.ofOutcome outcome, s') ∧
      (BoardTest.run (executor c limit).recorded c).run (s, []) = (outcome, s', made) ∧
      List.Forall₂ (fun x traffic => Carries x.before.link traffic x.after.link) made shares ∧
      Carries s.link shares.flatten s'.link ∧
      (∀ side, (s'.link side).written = (s.link side).written ++ sentOn side shares.flatten ∧
        ∃ counts : List Nat, counts.length = BoardTest.phases.length ∧
          (∀ n ∈ counts, Allowed c n) ∧
          sentOn side shares.flatten <+: commands counts BoardTest.phases ∧
          ∀ t, outcome = some (.ok t) →
            sentOn side shares.flatten = commands counts BoardTest.phases) ∧
      Guarded c BoardTest.phases shares.flatten := by
  obtain ⟨made, outcome, s', hplain, hwork, shares, ⟨hshares, hcarries⟩, horderly⟩ :=
    sends_run c limit s []
  refine ⟨made, outcome, s', shares, ?_, hwork, hshares, hcarries,
    fun side => ⟨(hcarries side).written, ?_⟩, horderly.guarded (by decide)⟩
  · rw [runTests, carryOut_eq, hplain]
  · obtain ⟨counts, hlength, hall, halong, hthrough⟩ := horderly.sent side
    refine ⟨counts, hlength, hall, halong, ?_⟩
    rintro t rfl
    exact hthrough rfl

/-- What goes to a device that is busy once, before the first phase. -/
example : commands [2, 1, 1, 1, 1] BoardTest.phases =
    ["idle", "idle", "hwInfo start", "idle", "lin start", "idle", "uart start", "idle",
      "gpio start", "idle", "can start"] := by
  decide

end Session

end BoardBench
