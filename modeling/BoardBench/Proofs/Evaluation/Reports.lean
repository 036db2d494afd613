import BoardBench.Proofs.Evaluation.Breakdown

/-!
# Reports — every violation is reported, and nothing else

What an evaluation lists is put side by side with what is in the log. The events of a role that are
about the subsystem are sorted by channel, and from there on everything is said of one channel at a
time: when nothing is reported of it, and what is reported otherwise, in which order and how often.

Each of the three theorems has two halves. The first says when nothing is reported, and so that no
violation is missed; the second says what is reported otherwise, and so that nothing is made up. The
second half is by channel, and of a channel it gives the whole report and not only its members: how
often a thing is said and in which order is part of what a maintainer reads.

The three subsystems look alike, but they break off in different places. On LIN a side without any
report ends the check as a whole, on UART a tester that sent nothing does, and on CAN nothing does,
but a channel has to have two frames at least. The timing is that of what was received, and on UART
that of what was sent, if there are bounds for it. So there is a report structure for each of them,
and what they share is in the module on breakdowns.

The times have to fit into a signed number for the same reason everywhere, and it is the clock that
is asked for that and not every single pair: if it stays within half its range, all pairs do.
-/

set_option autoImplicit false

namespace BoardBench.Evaluation

/-! ## CAN -/

namespace Can

variable {b : Bounds} {c : String} {sents receiveds log : List Event}

/-- The frames that a role reports on a channel. -/
def framesOf (r : Role) (c : String) (log : List Event) : List Event :=
  log.filter fun e => e.isFrom r && e.mentions "can@" && e.channel 12 == c

theorem onChannel_selected (r : Role) (c : String) (log : List Event) :
    onChannel width c (selected r (·.mentions marker) log) = framesOf r c log := by
  rw [onChannel, selected, List.filter_filter, framesOf]
  refine List.filter_congr fun e _ => ?_
  exact Bool.and_comm _ _

theorem channel?_of_mem {d : Diagnostic} (hd : d ∈ channelDiagnostics b c sents receiveds) :
    d.channel? = some c := by
  have hpayloads : AllOn c (payloadDiagnostics c sents receiveds) :=
    .filterMap (R := fun p : (Event × Event) × Nat => p.1.1.payload = p.1.2.payload)
      (g := fun p => .payload c p.2 p.1.1 p.1.2) (fun _ => rfl) fun _ => rfl
  have hperiod : AllOn c (periodDiagnostics b c receiveds) := by
    unfold periodDiagnostics
    split
    · exact .singleton rfl
    · exact .spacing c _ b receiveds
  unfold channelDiagnostics at hd
  dsimp only at hd
  split at hd
  · exact hpayloads.append hperiod d hd
  · exact (AllOn.counts c _).append (.singleton rfl) d hd

/-- What is reported of a channel on which the numbers of frames differ: that they do, and that no
more is checked. -/
theorem channelDiagnostics_of_ne (h : sents.length ≠ receiveds.length) :
    channelDiagnostics b c sents receiveds =
      [.counts c ⟨"sent frames", sents.length⟩ ⟨"received frames", receiveds.length⟩,
        .skipped c "equality"] := by
  have hne : (receiveds.length != sents.length) = true := by simpa using Ne.symm h
  simp [channelDiagnostics, countDiagnostics, hne]

/-- What is reported of a channel on which they agree. -/
theorem channelDiagnostics_of_eq (h : sents.length = receiveds.length) :
    channelDiagnostics b c sents receiveds =
      payloadDiagnostics c sents receiveds ++ periodDiagnostics b c receiveds := by
  have hcounts : countDiagnostics c
      [⟨"sent frames", sents.length⟩, ⟨"received frames", receiveds.length⟩] = [] :=
    countDiagnostics_eq_nil_iff.2 (by simp [h])
  simp [channelDiagnostics, hcounts]

/-- What is to be said of the frames at some position: that their payloads differ. -/
def Mismatch (c : String) (sents receiveds : List Event) (i : Nat) (d : Diagnostic) : Prop :=
  ∃ s r, sents[i]? = some s ∧ receiveds[i]? = some r ∧ s.payload ≠ r.payload ∧
    d = .payload c i s r

/-- What is to be said of a frame and the one after it: that they are not the right time apart. -/
def Misspaced (b : Bounds) (c : String) (receiveds : List Event) (i : Nat) (d : Diagnostic) :
    Prop :=
  ∃ x y, receiveds[i]? = some x ∧ receiveds[i + 1]? = some y ∧ ¬b.Spaced x y ∧
    d = .spacing c "frame" (i + 1) b x.timeMs y.timeMs

/-- What is reported of a channel on which as many frames were received as sent: each mismatch of
payloads, and behind that, that there are too few frames, or each pair that is not the right time
apart. -/
def ReportsMatched (b : Bounds) (c : String) (sents receiveds : List Event)
    (ds : List Diagnostic) : Prop :=
  ∃ payloads period, ds = payloads ++ period ∧
    OnePerPosition (Mismatch c sents receiveds) payloads ∧
    if receiveds.length < 2 then period = [.fewFrames c]
    else OnePerPosition (Misspaced b c receiveds) period

theorem reportsMatched (h : sents.length = receiveds.length)
    (hnear : receiveds.IsChain Event.Near) :
    ReportsMatched b c sents receiveds (channelDiagnostics b c sents receiveds) := by
  refine ⟨_, _, channelDiagnostics_of_eq h, ?_, ?_⟩
  · exact onePerPosition_zip (R := fun s r : Event => s.payload = r.payload)
      (fun s r i => rfl) sents receiveds
  · unfold periodDiagnostics
    split
    · rfl
    · exact onePerPosition_spacing hnear

/-- The violations are those of the channels that occur, each gone through once. -/
theorem diagnostics_findings : (findings b log).diagnostics =
    (channels width [received log, sent log]).flatMap fun c =>
      channelDiagnostics b c (framesOf .sut c log) (framesOf .tester c log) := by
  simp only [← onChannel_selected]
  rfl

theorem mem_channels_iff : c ∈ channels width [received log, sent log] ↔
    framesOf .sut c log ≠ [] ∨ framesOf .tester c log ≠ [] := by
  rw [mem_channels_iff_onChannel]
  simp only [List.mem_cons, List.not_mem_nil, or_false, exists_eq_or_imp, exists_eq_left]
  rw [sent, received, onChannel_selected, onChannel_selected]
  exact or_comm

/-- Frames of a tester whose clock stays within half its range are near one another. -/
theorem near_framesOf (h : log.Pairwise Event.Near) (c : String) :
    (framesOf .tester c log).IsChain Event.Near :=
  (h.sublist List.filter_sublist).isChain

/-- **The verdict on a CAN test is sound and complete.** Let the times between neighbouring frames
of the tester fit into a signed 64-bit number. Then nothing is reported if and only if on every
channel the tester received what the board under test sent, payload by payload, and, if anything
was sent at all, at least two frames, which are the right time apart.

Otherwise, whatever is reported is about a channel on which there are frames. Of a channel on which
the numbers of frames differ exactly two things are reported, and nothing else is checked. Of any
other what is reported is as `ReportsMatched` has it. -/
theorem can_test_reports_each_violation_once (timing : TimingSettings) (log : List Event)
    (hnear : ∀ c, (framesOf .tester c log).IsChain Event.Near) :
    (∀ e : Event, e.HasChannel 12 (e.channel 12)) ∧
    ((ofLog timing .can log).diagnostics = [] ↔
      ∀ c, (framesOf .sut c log).map Event.payload = (framesOf .tester c log).map Event.payload ∧
        (framesOf .tester c log ≠ [] → 2 ≤ (framesOf .tester c log).length ∧
          (framesOf .tester c log).IsChain timing.can.Spaced)) ∧
    (∀ d ∈ (ofLog timing .can log).diagnostics, ∃ c, d.channel? = some c ∧
      (framesOf .sut c log ≠ [] ∨ framesOf .tester c log ≠ [])) ∧
    ∀ c, framesOf .sut c log ≠ [] ∨ framesOf .tester c log ≠ [] →
      ((framesOf .sut c log).length ≠ (framesOf .tester c log).length →
        diagnosticsOn c (ofLog timing .can log).diagnostics =
          [.counts c ⟨"sent frames", (framesOf .sut c log).length⟩
              ⟨"received frames", (framesOf .tester c log).length⟩,
            .skipped c "equality"]) ∧
      ((framesOf .sut c log).length = (framesOf .tester c log).length →
        ReportsMatched timing.can c (framesOf .sut c log) (framesOf .tester c log)
          (diagnosticsOn c (ofLog timing .can log).diagnostics)) := by
  have hds : (ofLog timing .can log).diagnostics = (findings timing.can log).diagnostics := rfl
  -- what is said about a channel is found in the diagnostics of that channel alone, as no channel
  -- is looked at twice
  have hon : ∀ c, framesOf .sut c log ≠ [] ∨ framesOf .tester c log ≠ [] →
      diagnosticsOn c (ofLog timing .can log).diagnostics =
        channelDiagnostics timing.can c (framesOf .sut c log) (framesOf .tester c log) := by
    intro c hc
    rw [hds, diagnostics_findings]
    exact diagnosticsOn_flatMap (nodup_channels _ _) (fun c d hd => channel?_of_mem hd)
      (mem_channels_iff.2 hc)
  refine ⟨fun e => e.hasChannel_channel 12, ?_, ?_, fun c hc => ⟨fun hne => ?_, fun heq => ?_⟩⟩
  · rw [hds, findings_eq_nil_iff]
    refine forall_congr' fun c => ?_
    have hspaced := isChain_apart_iff (b := timing.can) (hnear c)
    rw [sent, received, onChannel_selected, onChannel_selected, Accepts, hspaced]
    refine and_congr_right fun _ => ⟨fun ⟨hmany, hchain⟩ hsome => ?_, fun h => ?_⟩
    · exact ⟨hmany.resolve_left hsome, hchain⟩
    · by_cases hnone : framesOf .tester c log = []
      · rw [hnone]
        exact ⟨Or.inl rfl, .nil⟩
      · exact ⟨Or.inr (h hnone).1, (h hnone).2⟩
  · intro d hd
    rw [hds, diagnostics_findings] at hd
    obtain ⟨c, hc, hd⟩ := List.mem_flatMap.1 hd
    exact ⟨c, channel?_of_mem hd, mem_channels_iff.1 hc⟩
  · rw [hon c hc]
    exact channelDiagnostics_of_ne hne
  · rw [hon c hc]
    exact reportsMatched heq (hnear c)

/-- Two controllers, one of which was never heard, while the second frame of the other came both
late and garbled. -/
def garbledFrames : List Event :=
  [⟨3, .inf, "sut", "can@40006400: 11"⟩, ⟨5, .inf, "tester", "can@40006400: 11"⟩,
    ⟨4, .inf, "sut", "can@40006800: 11"⟩, ⟨103, .inf, "sut", "can@40006400: 22"⟩,
    ⟨105, .inf, "tester", "can@40006400: 23"⟩]

theorem garbledFrames_are_reported :
    (ofLog {} .can garbledFrames).diagnostics ≠ [] ∧
      diagnosticsOn "can@40006800" (ofLog {} .can garbledFrames).diagnostics =
        [.counts "can@40006800" ⟨"sent frames", 1⟩ ⟨"received frames", 0⟩,
          .skipped "can@40006800" "equality"] ∧
      ReportsMatched ⟨40, 60⟩ "can@40006400" (framesOf .sut "can@40006400" garbledFrames)
        (framesOf .tester "can@40006400" garbledFrames)
        (diagnosticsOn "can@40006400" (ofLog {} .can garbledFrames).diagnostics) := by
  have h := can_test_reports_each_violation_once {} garbledFrames (near_framesOf (by decide))
  obtain ⟨-, hnone, -, hreports⟩ := h
  have hsent : (framesOf .sut "can@40006800" garbledFrames).length = 1 := by decide +kernel
  have hheard : (framesOf .tester "can@40006800" garbledFrames).length = 0 := by decide +kernel
  refine ⟨fun hempty => ?_, ?_, ?_⟩
  · exact absurd (hnone.1 hempty "can@40006800").1 (by decide +kernel)
  · have hcounts := (hreports "can@40006800" (by decide +kernel)).1 (by rw [hsent, hheard]; decide)
    rwa [hsent, hheard] at hcounts
  · exact (hreports "can@40006400" (by decide +kernel)).2 (by decide +kernel)

end Can

/-! ## Serial lines

LIN frames and UART characters are both reported as events on a serial line. -/

/-- The events of a role on the serial lines, by a word for what happened there. -/
def serialEvents (r : Role) (word : String) (log : List Event) : List Event :=
  log.filter fun e => e.isFrom r && (e.mentions "serial@" && e.mentions word)

/-- Those of them that are on one channel. -/
def serialOn (r : Role) (word c : String) (log : List Event) : List Event :=
  (serialEvents r word log).filter fun e => e.channel 15 == c

/-- Events whose clock stays within half its range are near one another. -/
theorem near_serialOn {log : List Event} (h : log.Pairwise Event.Near) (r : Role)
    (word c : String) : (serialOn r word c log).IsChain Event.Near :=
  (h.sublist (List.filter_sublist.trans List.filter_sublist)).isChain

/-! ## LIN -/

namespace Lin

variable {b : Bounds} {c : String} {sents receiveds log : List Event}

theorem allOn_channelDiagnostics (b : Bounds) (c : String) (sents receiveds : List Event) :
    AllOn c (channelDiagnostics b c sents receiveds) := by
  have hframes : AllOn c (frameDiagnostics c sents receiveds) :=
    .filterMap (R := fun p : (Event × Event) × Nat => p.1.1.lastChar = p.1.2.lastChar)
      (g := fun p => .frame c p.2 p.1.1 p.1.2) (fun _ => rfl) fun _ => rfl
  unfold channelDiagnostics
  dsimp only
  split
  · exact hframes.append (.spacing c _ b receiveds)
  · exact (AllOn.counts c _).append (.singleton rfl)

/-- What is reported of a channel on which the numbers of frames differ: that they do, and that no
more is checked. -/
theorem channelDiagnostics_of_ne (h : sents.length ≠ receiveds.length) :
    channelDiagnostics b c sents receiveds =
      [.counts c ⟨"sent messages", sents.length⟩ ⟨"received messages", receiveds.length⟩,
        .skipped c "equality"] := by
  have hcounts : countDiagnostics c
      [⟨"sent messages", sents.length⟩, ⟨"received messages", receiveds.length⟩] =
        [.counts c ⟨"sent messages", sents.length⟩ ⟨"received messages", receiveds.length⟩] := by
    rw [countDiagnostics_pair]
    exact if_neg (Ne.symm h)
  unfold channelDiagnostics
  rw [hcounts]
  rfl

/-- What is reported of a channel on which they agree. -/
theorem channelDiagnostics_of_eq (h : sents.length = receiveds.length) :
    channelDiagnostics b c sents receiveds =
      frameDiagnostics c sents receiveds ++ spacingDiagnostics c "frame" b receiveds := by
  have hcounts : countDiagnostics c
      [⟨"sent messages", sents.length⟩, ⟨"received messages", receiveds.length⟩] = [] := by
    rw [countDiagnostics_pair]
    exact if_pos h.symm
  unfold channelDiagnostics
  rw [hcounts]
  rfl

/-- What is to be said of the frames at some position: that they end differently. -/
def Mismatch (c : String) (sents receiveds : List Event) (i : Nat) (d : Diagnostic) : Prop :=
  ∃ s r, sents[i]? = some s ∧ receiveds[i]? = some r ∧ s.lastChar ≠ r.lastChar ∧
    d = .frame c i s r

/-- What is reported of a channel. If as many frames were received as sent, it is each pair of
frames that end differently, and behind that, each pair of neighbours that is not the right time
apart. Otherwise it is that the numbers differ, and that no more is checked. -/
def ReportsChannel (b : Bounds) (c : String) (sents receiveds : List Event)
    (ds : List Diagnostic) : Prop :=
  if sents.length = receiveds.length then
    ∃ frames period, ds = frames ++ period ∧ OnePerPosition (Mismatch c sents receiveds) frames ∧
      OnePerPosition (OutOfStep c "frame" b receiveds) period
  else
    ds = [.counts c ⟨"sent messages", sents.length⟩ ⟨"received messages", receiveds.length⟩,
      .skipped c "equality"]

theorem reportsChannel (hnear : receiveds.IsChain Event.Near) :
    ReportsChannel b c sents receiveds (channelDiagnostics b c sents receiveds) := by
  unfold ReportsChannel
  split
  · rename_i heq
    refine ⟨_, _, channelDiagnostics_of_eq heq, ?_, onePerPosition_spacing hnear⟩
    exact onePerPosition_zip (R := fun s r : Event => s.lastChar = r.lastChar)
      (fun s r i => rfl) sents receiveds
  · rename_i hne
    exact channelDiagnostics_of_ne hne

theorem mem_channels_iff : c ∈ channels width [sent log, received log] ↔
    serialOn .sut "sending" c log ≠ [] ∨ serialOn .tester "received" c log ≠ [] := by
  rw [mem_channels_iff_onChannel]
  simp only [List.mem_cons, List.not_mem_nil, or_false, exists_eq_or_imp, exists_eq_left]
  rfl

/-- A side that reported nothing is all that is reported … -/
theorem diagnostics_findings_of_missing (h : sent log = [] ∨ received log = []) :
    (findings b log).diagnostics = missingDiagnostics (sent log) (received log) := by
  have hmissing : (missingDiagnostics (sent log) (received log)).isEmpty = false := by
    unfold missingDiagnostics
    rcases h with h | h
    · simp [h]
    · simp [h]
  unfold findings
  dsimp only [Findings.check]
  rw [hmissing]
  rfl

/-- … and otherwise the violations are those of the channels that occur, each gone through once. -/
theorem diagnostics_findings_of_present (hs : sent log ≠ []) (hr : received log ≠ []) :
    (findings b log).diagnostics =
      (channels width [sent log, received log]).flatMap fun c =>
        channelDiagnostics b c (serialOn .sut "sending" c log)
          (serialOn .tester "received" c log) := by
  have hmissing : missingDiagnostics (sent log) (received log) = [] := by
    simp [missingDiagnostics, hs, hr]
  unfold findings
  rw [hmissing]
  rfl

/-- **The verdict on a LIN test is sound and complete.** Let the times between neighbouring frames
of the tester fit into a signed 64-bit number. Then nothing is reported if and only if frames were
sent and received, and on every channel the tester received as many as the board under test sent,
which end in the same characters and are the right time apart.

If a side reported nothing, this is all that is reported. Otherwise, whatever is reported is about a
channel on which there are frames, and of each of these what is reported is as `ReportsChannel` has
it. -/
theorem lin_test_reports_each_violation_once (timing : TimingSettings) (log : List Event)
    (hnear : ∀ c, (serialOn .tester "received" c log).IsChain Event.Near) :
    (∀ e : Event, e.HasChannel 15 (e.channel 15)) ∧
    ((ofLog timing .lin log).diagnostics = [] ↔
      serialEvents .sut "sending" log ≠ [] ∧ serialEvents .tester "received" log ≠ [] ∧
        ∀ c, (serialOn .sut "sending" c log).map Event.lastChar =
            (serialOn .tester "received" c log).map Event.lastChar ∧
          (serialOn .tester "received" c log).IsChain timing.lin.Spaced) ∧
    (serialEvents .sut "sending" log = [] ∨ serialEvents .tester "received" log = [] →
      (ofLog timing .lin log).diagnostics =
        (if serialEvents .sut "sending" log = [] then [.missing "messages sent by SUT"] else []) ++
          if serialEvents .tester "received" log = [] then [.missing "messages received by tester"]
          else []) ∧
    (serialEvents .sut "sending" log ≠ [] → serialEvents .tester "received" log ≠ [] →
      (∀ d ∈ (ofLog timing .lin log).diagnostics, ∃ c, d.channel? = some c ∧
        (serialOn .sut "sending" c log ≠ [] ∨ serialOn .tester "received" c log ≠ [])) ∧
      ∀ c, serialOn .sut "sending" c log ≠ [] ∨ serialOn .tester "received" c log ≠ [] →
        ReportsChannel timing.lin c (serialOn .sut "sending" c log)
          (serialOn .tester "received" c log)
          (diagnosticsOn c (ofLog timing .lin log).diagnostics)) := by
  have hds : (ofLog timing .lin log).diagnostics = (findings timing.lin log).diagnostics := rfl
  refine ⟨fun e => e.hasChannel_channel 15, ?_, fun hmissing => ?_, fun hs hr => ?_⟩
  · rw [hds, findings_eq_nil_iff]
    refine and_congr_right fun _ => and_congr_right fun _ => forall_congr' fun c => ?_
    exact and_congr_right fun _ => isChain_apart_iff (hnear c)
  · rw [hds, diagnostics_findings_of_missing hmissing]
    simp only [missingDiagnostics, List.isEmpty_iff]
    rfl
  · obtain ⟨habout, hon⟩ := about_channels (diagnostics_findings_of_present hs hr)
      (nodup_channels _ _) (fun c => allOn_channelDiagnostics timing.lin c _ _)
      fun c => mem_channels_iff
    refine ⟨habout, fun c hc => ?_⟩
    rw [hds, hon c hc]
    exact reportsChannel (hnear c)

/-- Two buses. On one of them the second frame came late, and with another last byte; on the other
the tester heard a frame that nobody sent. -/
def strayFrames : List Event :=
  [⟨3, .inf, "sut", "serial@40004800 sending: 1"⟩,
    ⟨5, .inf, "tester", "serial@40004800 received 1"⟩,
    ⟨103, .inf, "sut", "serial@40004800 sending: 2"⟩,
    ⟨205, .inf, "tester", "serial@40004800 received 8"⟩,
    ⟨207, .inf, "tester", "serial@40013800 received 1"⟩]

theorem strayFrames_are_reported :
    (ofLog {} .lin strayFrames).diagnostics ≠ [] ∧
      (ofLog {} .lin []).diagnostics =
        [.missing "messages sent by SUT", .missing "messages received by tester"] ∧
      diagnosticsOn "serial@40013800" (ofLog {} .lin strayFrames).diagnostics =
        [.counts "serial@40013800" ⟨"sent messages", 0⟩ ⟨"received messages", 1⟩,
          .skipped "serial@40013800" "equality"] ∧
      ReportsChannel ⟨90, 110⟩ "serial@40004800"
        (serialOn .sut "sending" "serial@40004800" strayFrames)
        (serialOn .tester "received" "serial@40004800" strayFrames)
        (diagnosticsOn "serial@40004800" (ofLog {} .lin strayFrames).diagnostics) := by
  obtain ⟨-, hnone, -, hreports⟩ :=
    lin_test_reports_each_violation_once {} strayFrames (near_serialOn (by decide) _ _)
  obtain ⟨-, -, hmissing, -⟩ :=
    lin_test_reports_each_violation_once {} [] (near_serialOn (by decide) _ _)
  obtain ⟨-, hon⟩ := hreports (by decide +kernel) (by decide +kernel)
  have hsent : serialOn .sut "sending" "serial@40013800" strayFrames = [] := by decide +kernel
  have hheard : serialOn .tester "received" "serial@40013800" strayFrames =
      [⟨207, .inf, "tester", "serial@40013800 received 1"⟩] := by decide +kernel
  refine ⟨fun hempty => ?_, hmissing (Or.inl rfl), ?_, hon "serial@40004800" (by decide +kernel)⟩
  · have hends := ((hnone.1 hempty).2.2 "serial@40013800").1
    rw [hsent, hheard] at hends
    cases hends
  · have hcounts := hon "serial@40013800" (Or.inr (by rw [hheard]; exact List.cons_ne_nil _ _))
    rw [ReportsChannel, hsent, hheard, if_neg (by decide)] at hcounts
    exact hcounts

end Lin

/-! ## UART -/

namespace Uart

variable {spacing : Option Bounds} {c : String} {sents receiveds echoes log : List Event}

theorem allOn_mismatch (c : String) (i : Nat) (s : Event) (receiver : String) (r : Event) :
    AllOn c (mismatch c i s receiver r) := by
  unfold mismatch
  split
  · exact .nil
  · exact .singleton rfl

theorem allOn_channelDiagnostics (spacing : Option Bounds) (c : String)
    (sents receiveds echoes : List Event) :
    AllOn c (channelDiagnostics spacing c sents receiveds echoes) := by
  have hcharacters : AllOn c (characterDiagnostics c sents receiveds echoes) :=
    .flatMap fun x => (allOn_mismatch c _ _ _ _).append (allOn_mismatch c _ _ _ _)
  unfold channelDiagnostics
  dsimp only
  split
  · refine hcharacters.append ?_
    cases spacing with
    | none => exact .nil
    | some b => exact .spacing c _ b sents
  · exact (AllOn.counts c _).append (.singleton rfl)

/-- The lines for the numbers of characters: one for each receiver that does not have as many as
were sent. -/
def countLines (c : String) (sents receiveds echoes : List Event) : List Diagnostic :=
  countLine c ⟨"sent messages", sents.length⟩ ⟨"received messages (on SUT)", receiveds.length⟩ ++
    countLine c ⟨"sent messages", sents.length⟩ ⟨"received messages (on tester)", echoes.length⟩

theorem countDiagnostics_eq (c : String) (sents receiveds echoes : List Event) :
    countDiagnostics c
        [⟨"sent messages", sents.length⟩, ⟨"received messages (on SUT)", receiveds.length⟩,
          ⟨"received messages (on tester)", echoes.length⟩] =
      countLines c sents receiveds echoes := by
  rw [countDiagnostics_cons_cons, countDiagnostics_pair, countLines]

theorem countLines_eq_nil_iff : countLines c sents receiveds echoes = [] ↔
    receiveds.length = sents.length ∧ echoes.length = sents.length := by
  rw [countLines, List.append_eq_nil_iff, countLine_eq_nil_iff, countLine_eq_nil_iff]

/-- What is reported of a channel: more than the numbers only if they agree. -/
theorem channelDiagnostics_eq : channelDiagnostics spacing c sents receiveds echoes =
    if receiveds.length = sents.length ∧ echoes.length = sents.length then
      characterDiagnostics c sents receiveds echoes ++ match spacing with
        | some b => spacingDiagnostics c "send" b sents
        | none => []
    else countLines c sents receiveds echoes ++ [.skipped c "equality"] := by
  unfold channelDiagnostics
  rw [countDiagnostics_eq]
  by_cases hlen : receiveds.length = sents.length ∧ echoes.length = sents.length
  · rw [if_pos hlen, countLines_eq_nil_iff.2 hlen]
    rfl
  · rw [if_neg hlen]
    exact if_neg fun hempty => hlen (countLines_eq_nil_iff.1 (List.isEmpty_iff.1 hempty))

/-- What is to be said of the character at some position: that the board under test did not receive
it as it was sent, and that the tester did not get it back so. -/
def Garbled (c : String) (sents receiveds echoes : List Event) (i : Nat) (ds : List Diagnostic) :
    Prop :=
  ∃ s r e, sents[i]? = some s ∧ receiveds[i]? = some r ∧ echoes[i]? = some e ∧
    ds = (if s.lastChar = r.lastChar then [] else [.character c i s "SUT" r]) ++
      if s.lastChar = e.lastChar then [] else [.character c i s "tester" e]

/-- What is reported of a channel. If as many characters came to both receivers as were sent, it is
what there is to be said of each in turn, and behind that, if there are bounds, each pair of
neighbours that were not sent the right time apart. Otherwise it is the numbers that differ, and
that no more is checked. -/
def ReportsChannel (spacing : Option Bounds) (c : String) (sents receiveds echoes : List Event)
    (ds : List Diagnostic) : Prop :=
  if receiveds.length = sents.length ∧ echoes.length = sents.length then
    ∃ characters pace, ds = characters ++ pace ∧
      PieceByPiece sents.length (Garbled c sents receiveds echoes) characters ∧
      match spacing with
      | some b => OnePerPosition (OutOfStep c "send" b sents) pace
      | none => pace = []
  else ds = countLines c sents receiveds echoes ++ [.skipped c "equality"]

theorem reportsChannel (hnear : ∀ b, spacing = some b → sents.IsChain Event.Near) :
    ReportsChannel spacing c sents receiveds echoes
      (channelDiagnostics spacing c sents receiveds echoes) := by
  rw [ReportsChannel, channelDiagnostics_eq]
  split
  · rename_i hlen
    refine ⟨_, _, rfl, ?_, ?_⟩
    · exact pieceByPiece_zip_zip _ hlen.1.symm hlen.2.symm
    · cases spacing with
      | none => rfl
      | some b => exact onePerPosition_spacing (hnear b rfl)
  · rfl

theorem mem_channels_iff : c ∈ channels width [sent log, echoed log, received log] ↔
    serialOn .tester "send" c log ≠ [] ∨ serialOn .sut "received" c log ≠ [] ∨
      serialOn .tester "received" c log ≠ [] := by
  rw [mem_channels_iff_onChannel]
  simp only [List.mem_cons, List.not_mem_nil, or_false, exists_eq_or_imp, exists_eq_left]
  exact or_congr_right or_comm

/-- If nothing was sent, this is all that is reported … -/
theorem diagnostics_findings_of_missing (h : sent log = []) :
    (findings spacing log).diagnostics = [.missing "messages sent by tester"] := by
  unfold findings
  rw [h]
  rfl

/-- … and otherwise the violations are those of the channels that occur, each gone through once. -/
theorem diagnostics_findings_of_present (h : sent log ≠ []) :
    (findings spacing log).diagnostics =
      (channels width [sent log, echoed log, received log]).flatMap fun c =>
        channelDiagnostics spacing c (serialOn .tester "send" c log)
          (serialOn .sut "received" c log) (serialOn .tester "received" c log) := by
  unfold findings
  rw [if_neg (by simpa using h)]
  rfl

/-- **The verdict on a UART test is sound and complete.** If the timing is checked, let the times
between neighbouring characters that the tester sent fit into a signed 64-bit number. Then nothing
is reported if and only if something was sent, and on every channel the board under test received
and the tester got back as many characters as were sent, the same ones, and they were sent the right
time apart, if there are bounds.

If nothing was sent, this is all that is reported. Otherwise, whatever is reported is about a
channel on which there are characters, and of each of these what is reported is as `ReportsChannel`
has it. -/
theorem uart_test_reports_each_violation_once (timing : TimingSettings) (log : List Event)
    (hnear : ∀ b, timing.uart = some b → ∀ c,
      (serialOn .tester "send" c log).IsChain Event.Near) :
    (∀ e : Event, e.HasChannel 15 (e.channel 15)) ∧
    ((ofLog timing .uart log).diagnostics = [] ↔
      serialEvents .tester "send" log ≠ [] ∧
        ∀ c, (serialOn .tester "send" c log).map Event.lastChar =
            (serialOn .sut "received" c log).map Event.lastChar ∧
          (serialOn .tester "send" c log).map Event.lastChar =
            (serialOn .tester "received" c log).map Event.lastChar ∧
          ∀ b, timing.uart = some b → (serialOn .tester "send" c log).IsChain b.Spaced) ∧
    (serialEvents .tester "send" log = [] →
      (ofLog timing .uart log).diagnostics = [.missing "messages sent by tester"]) ∧
    (serialEvents .tester "send" log ≠ [] →
      (∀ d ∈ (ofLog timing .uart log).diagnostics, ∃ c, d.channel? = some c ∧
        (serialOn .tester "send" c log ≠ [] ∨ serialOn .sut "received" c log ≠ [] ∨
          serialOn .tester "received" c log ≠ [])) ∧
      ∀ c, serialOn .tester "send" c log ≠ [] ∨ serialOn .sut "received" c log ≠ [] ∨
          serialOn .tester "received" c log ≠ [] →
        ReportsChannel timing.uart c (serialOn .tester "send" c log)
          (serialOn .sut "received" c log) (serialOn .tester "received" c log)
          (diagnosticsOn c (ofLog timing .uart log).diagnostics)) := by
  have hds : (ofLog timing .uart log).diagnostics = (findings timing.uart log).diagnostics := rfl
  refine ⟨fun e => e.hasChannel_channel 15, ?_, fun hnone => ?_, fun hsome => ?_⟩
  · rw [hds, findings_eq_nil_iff]
    refine and_congr_right fun _ => forall_congr' fun c => and_congr_right fun _ =>
      and_congr_right fun _ => forall_congr' fun b => forall_congr' fun hb => ?_
    exact isChain_apart_iff (hnear b hb c)
  · rw [hds]
    exact diagnostics_findings_of_missing hnone
  · obtain ⟨habout, hon⟩ := about_channels (diagnostics_findings_of_present hsome)
      (nodup_channels _ _) (fun c => allOn_channelDiagnostics timing.uart c _ _ _)
      fun c => mem_channels_iff
    refine ⟨habout, fun c hc => ?_⟩
    rw [hds, hon c hc]
    exact reportsChannel fun b hb => hnear b hb c

/-- Three characters on one line, of which the board under test misread the second, which also was
sent too early, and the third came back garbled; and one on another line that nobody sent. -/
def garbledEcho : List Event :=
  [⟨100, .inf, "tester", "serial@40013800 sending: a"⟩,
    ⟨102, .inf, "sut", "serial@40013800 received a"⟩,
    ⟨104, .inf, "tester", "serial@40013800 received a"⟩,
    ⟨106, .inf, "tester", "serial@40013800 sending: b"⟩,
    ⟨108, .inf, "sut", "serial@40013800 received X"⟩,
    ⟨110, .inf, "tester", "serial@40013800 received b"⟩,
    ⟨206, .inf, "tester", "serial@40013800 sending: c"⟩,
    ⟨208, .inf, "sut", "serial@40013800 received c"⟩,
    ⟨210, .inf, "tester", "serial@40013800 received Y"⟩,
    ⟨212, .inf, "sut", "serial@40004400 received z"⟩]

theorem garbledEcho_is_reported :
    (ofLog { uart := some ⟨90, 110⟩ } .uart garbledEcho).diagnostics ≠ [] ∧
      (ofLog { uart := some ⟨90, 110⟩ } .uart []).diagnostics =
        [.missing "messages sent by tester"] ∧
      diagnosticsOn "serial@40004400"
          (ofLog { uart := some ⟨90, 110⟩ } .uart garbledEcho).diagnostics =
        [.counts "serial@40004400" ⟨"sent messages", 0⟩ ⟨"received messages (on SUT)", 1⟩,
          .skipped "serial@40004400" "equality"] ∧
      ReportsChannel (some ⟨90, 110⟩) "serial@40013800"
        (serialOn .tester "send" "serial@40013800" garbledEcho)
        (serialOn .sut "received" "serial@40013800" garbledEcho)
        (serialOn .tester "received" "serial@40013800" garbledEcho)
        (diagnosticsOn "serial@40013800"
          (ofLog { uart := some ⟨90, 110⟩ } .uart garbledEcho).diagnostics) := by
  obtain ⟨-, hnone, -, hreports⟩ := uart_test_reports_each_violation_once
    { uart := some ⟨90, 110⟩ } garbledEcho fun _ _ => near_serialOn (by decide) _ _
  obtain ⟨-, -, hmissing, -⟩ := uart_test_reports_each_violation_once
    { uart := some ⟨90, 110⟩ } [] fun _ _ => near_serialOn (by decide) _ _
  obtain ⟨-, hon⟩ := hreports (by decide +kernel)
  have hsent : serialOn .tester "send" "serial@40004400" garbledEcho = [] := by decide +kernel
  have hheard : serialOn .sut "received" "serial@40004400" garbledEcho =
      [⟨212, .inf, "sut", "serial@40004400 received z"⟩] := by decide +kernel
  have hback : serialOn .tester "received" "serial@40004400" garbledEcho = [] := by
    decide +kernel
  refine ⟨fun hempty => ?_, hmissing rfl, ?_, hon "serial@40013800" (by decide +kernel)⟩
  · have hends := ((hnone.1 hempty).2 "serial@40004400").1
    rw [hsent, hheard] at hends
    cases hends
  · have hcounts := hon "serial@40004400"
      (Or.inr (Or.inl (by rw [hheard]; exact List.cons_ne_nil _ _)))
    rw [ReportsChannel, hsent, hheard, hback, if_neg (by decide)] at hcounts
    exact hcounts

end Uart

end BoardBench.Evaluation
