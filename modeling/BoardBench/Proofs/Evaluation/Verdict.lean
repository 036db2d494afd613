import BoardBench.Evaluation.OfLog
import BoardBench.Proofs.Sequence
import Mathlib.Tactic.SplitIfs

/-!
# Verdicts — exactly when an evaluation finds nothing

An evaluation lists violations; what it accepts is said nowhere in it. Here it is, as an
equivalence for each subsystem (`Lin.findings_eq_nil_iff` and its siblings): **no violation is
found exactly if the sequences agree on every channel in what the subsystem compares, and the one
whose timing is checked is evenly spaced**.

The evaluations go through the channels that occur. The conditions speak of all channels, which
comes to the same, since there is nothing to be found on a channel that does not occur.

The conditions (`Accepts`) are written for one subsystem each, on the sequences that its evaluation
selects, because this is where they can be read off the code check by check. They still speak of the
wrapped time between two events and of names that are cut off. What they come to for true times and
for boards is the matter of other modules; that these need not look at the evaluations any more is
what this one is for.
-/

set_option autoImplicit false

namespace BoardBench

/-! ## Checks -/

/-- Two events that follow one another are the right time apart. -/
def Bounds.Apart (b : Bounds) (previous current : Event) : Prop :=
  b.contains (elapsed previous.timeMs current.timeMs) = true

instance (b : Bounds) : DecidableRel b.Apart :=
  fun previous current => decEq (b.contains (elapsed previous.timeMs current.timeMs)) true

theorem spacingDiagnostics_eq_nil_iff {channel what : String} {bounds : Bounds}
    {events : List Event} :
    spacingDiagnostics channel what bounds events = [] ↔ events.IsChain bounds.Apart := by
  rw [← forall_mem_zip_tail_iff,
    ← forall_mem_zipIdx_iff (P := fun p : Event × Event => bounds.Apart p.1 p.2),
    spacingDiagnostics, List.filterMap_eq_nil_iff]
  refine forall_congr' fun p => forall_congr' fun _ => ?_
  unfold Bounds.Apart
  by_cases hp : bounds.contains (elapsed p.1.1.timeMs p.1.2.timeMs) = true <;> simp [hp]

/-- On a channel that does not occur there are no events. -/
theorem onChannel_eq_nil {width : Nat} {categories : List (List Event)} {events : List Event}
    {c : String} (hc : c ∉ channels width categories) (he : events ∈ categories) :
    onChannel width c events = [] := by
  rw [onChannel, List.filter_eq_nil_iff]
  intro e hmem heq
  exact hc (mem_channels.2 ⟨events, he, e, hmem, by simpa using heq⟩)

namespace Evaluation

/-! ## LIN -/

namespace Lin

variable {b : Bounds} {c : String} {sents receiveds log : List Event}

theorem frameDiagnostics_eq_nil_iff (h : sents.length = receiveds.length) :
    frameDiagnostics c sents receiveds = [] ↔
      sents.map Event.lastChar = receiveds.map Event.lastChar := by
  rw [← forall_mem_zip_iff h,
    ← forall_mem_zipIdx_iff (P := fun p : Event × Event => p.1.lastChar = p.2.lastChar),
    frameDiagnostics, List.filterMap_eq_nil_iff]
  refine forall_congr' fun p => forall_congr' fun _ => ?_
  by_cases hp : p.1.1.lastChar = p.1.2.lastChar <;> simp [hp]

def Accepts (b : Bounds) (sents receiveds : List Event) : Prop :=
  sents.map Event.lastChar = receiveds.map Event.lastChar ∧ receiveds.IsChain b.Apart

theorem channelDiagnostics_eq_nil_iff :
    channelDiagnostics b c sents receiveds = [] ↔ Accepts b sents receiveds := by
  by_cases hlen : sents.length = receiveds.length
  · have hcounts : countDiagnostics c
        [⟨"sent messages", sents.length⟩, ⟨"received messages", receiveds.length⟩] = [] :=
      countDiagnostics_eq_nil_iff.2 (by simp [hlen])
    simp only [channelDiagnostics, hcounts, List.isEmpty_nil, if_true, List.append_eq_nil_iff,
      frameDiagnostics_eq_nil_iff hlen, spacingDiagnostics_eq_nil_iff, Accepts]
  · refine iff_of_false ?_ fun h => hlen (length_eq_of_map_eq h.1)
    unfold channelDiagnostics
    dsimp only
    split
    · rename_i hcounts
      have := countDiagnostics_eq_nil_iff.1 (List.isEmpty_iff.1 hcounts)
      exact absurd (this _ List.mem_cons_self).symm hlen
    · simp

theorem findings_eq_nil_iff : (findings b log).diagnostics = [] ↔
    sent log ≠ [] ∧ received log ≠ [] ∧
      ∀ c, Accepts b (onChannel width c (sent log)) (onChannel width c (received log)) := by
  have hmissing : missingDiagnostics (sent log) (received log) = [] ↔
      sent log ≠ [] ∧ received log ≠ [] := by
    unfold missingDiagnostics
    rw [List.append_eq_nil_iff]
    split <;> split <;> simp_all
  rw [← and_assoc, ← hmissing]
  unfold findings
  dsimp only [Findings.check]
  split
  · rename_i hpresent
    rw [List.isEmpty_iff] at hpresent
    simp only [hpresent, List.nil_append, true_and, List.flatMap_eq_nil_iff,
      channelDiagnostics_eq_nil_iff]
    refine ⟨fun h c => ?_, fun h c _ => h c⟩
    by_cases hc : c ∈ channels width [sent log, received log]
    · exact h c hc
    · rw [onChannel_eq_nil hc (by simp), onChannel_eq_nil hc (by simp)]
      exact ⟨rfl, .nil⟩
  · rename_i hpresent
    rw [List.isEmpty_iff] at hpresent
    simp [hpresent]

end Lin

/-! ## UART -/

namespace Uart

variable {spacing : Option Bounds} {c : String} {sents receiveds echoes log : List Event}

theorem characterDiagnostics_eq_nil_iff (hr : sents.length = receiveds.length)
    (he : sents.length = echoes.length) :
    characterDiagnostics c sents receiveds echoes = [] ↔
      sents.map Event.lastChar = receiveds.map Event.lastChar ∧
        sents.map Event.lastChar = echoes.map Event.lastChar := by
  have hmismatch : ∀ {n : Nat} {s r : Event} {receiver : String},
      mismatch c n s receiver r = [] ↔ s.lastChar = r.lastChar := by
    intro n s r receiver
    unfold mismatch
    split <;> simp_all
  rw [← forall_mem_zip_zip_iff hr he,
    ← forall_mem_zipIdx_iff (P := fun p : (Event × Event) × Event =>
      p.1.1.lastChar = p.1.2.lastChar ∧ p.1.1.lastChar = p.2.lastChar),
    characterDiagnostics, List.flatMap_eq_nil_iff]
  simp only [List.append_eq_nil_iff, hmismatch]

def Accepts (spacing : Option Bounds) (sents receiveds echoes : List Event) : Prop :=
  sents.map Event.lastChar = receiveds.map Event.lastChar ∧
    sents.map Event.lastChar = echoes.map Event.lastChar ∧
    ∀ b, spacing = some b → sents.IsChain b.Apart

theorem channelDiagnostics_eq_nil_iff :
    channelDiagnostics spacing c sents receiveds echoes = [] ↔
      Accepts spacing sents receiveds echoes := by
  by_cases hlen : sents.length = receiveds.length ∧ sents.length = echoes.length
  · obtain ⟨hr, he⟩ := hlen
    have hcounts : countDiagnostics c
        [⟨"sent messages", sents.length⟩, ⟨"received messages (on SUT)", receiveds.length⟩,
          ⟨"received messages (on tester)", echoes.length⟩] = [] :=
      countDiagnostics_eq_nil_iff.2 (by simp [← hr, ← he])
    simp only [channelDiagnostics, hcounts, List.isEmpty_nil, if_true, List.append_eq_nil_iff,
      characterDiagnostics_eq_nil_iff hr he, Accepts, and_assoc]
    cases spacing with
    | none => simp
    | some b => simp [spacingDiagnostics_eq_nil_iff]
  · refine iff_of_false ?_ fun h =>
      hlen ⟨length_eq_of_map_eq h.1, length_eq_of_map_eq h.2.1⟩
    unfold channelDiagnostics
    dsimp only
    split
    · rename_i hcounts
      have hall := countDiagnostics_eq_nil_iff.1 (List.isEmpty_iff.1 hcounts)
      refine absurd ⟨?_, ?_⟩ hlen
      · exact (hall _ List.mem_cons_self).symm
      · exact (hall _ (List.mem_cons_of_mem _ List.mem_cons_self)).symm
    · simp

theorem findings_eq_nil_iff : (findings spacing log).diagnostics = [] ↔
    sent log ≠ [] ∧ ∀ c, Accepts spacing (onChannel width c (sent log))
      (onChannel width c (received log)) (onChannel width c (echoed log)) := by
  unfold findings
  dsimp only [Findings.check, Findings.error]
  split
  · rename_i hempty
    simp [List.isEmpty_iff.1 hempty]
  · rename_i hempty
    rw [List.isEmpty_iff] at hempty
    simp only [hempty, List.nil_append, List.flatMap_eq_nil_iff, channelDiagnostics_eq_nil_iff,
      ne_eq, not_false_iff, true_and]
    refine ⟨fun h c => ?_, fun h c _ => h c⟩
    by_cases hc : c ∈ channels width [sent log, echoed log, received log]
    · exact h c hc
    · rw [onChannel_eq_nil hc (by simp), onChannel_eq_nil hc (by simp),
        onChannel_eq_nil hc (by simp)]
      exact ⟨rfl, rfl, fun _ _ => .nil⟩

end Uart

/-! ## GPIO -/

namespace Gpio

variable {spacing : Bounds} {toggled ups downs log : List Event}

theorem orderDiagnostics_eq_nil_iff (hu : toggled.length = ups.length)
    (hd : toggled.length = downs.length) :
    orderDiagnostics toggled ups downs = [] ↔
      toggled.map pin = ups.map pin ∧ toggled.map pin = downs.map pin := by
  have hpins : ∀ {n : Nat} {t u d : Event},
      pinDiagnostics t u d n = [] ↔ pin t = pin u ∧ pin t = pin d := by
    intro n t u d
    have hmismatch : ∀ {pair : PinPair} {left right : String},
        pinMismatch pair left right n = [] ↔ left = right := by
      intro pair left right
      unfold pinMismatch
      split <;> simp_all
    rw [pinDiagnostics, List.append_eq_nil_iff, List.append_eq_nil_iff, hmismatch, hmismatch,
      hmismatch]
    constructor
    · rintro ⟨⟨-, hut⟩, hdt⟩
      exact ⟨hut.symm, hdt.symm⟩
    · rintro ⟨htu, htd⟩
      exact ⟨⟨htu.symm.trans htd, htu.symm⟩, htd.symm⟩
  rw [← forall_mem_zip_zip_iff hu hd,
    ← forall_mem_zipIdx_iff (P := fun p : (Event × Event) × Event =>
      pin p.1.1 = pin p.1.2 ∧ pin p.1.1 = pin p.2),
    orderDiagnostics, List.flatMap_eq_nil_iff]
  simp only [hpins]

/-- What is accepted. There are no channels here: the order is that of all pins together. -/
def Accepts (spacing : Bounds) (toggled ups downs : List Event) : Prop :=
  toggled.map pin = ups.map pin ∧ toggled.map pin = downs.map pin ∧ ups.IsChain spacing.Apart

/-- The violations, apart from the notes made on the way. -/
theorem diagnostics_findings (h : toggles log ≠ []) : (findings spacing log).diagnostics =
    countDiagnostics "GPIO" (tallies log)
      ++ spacingDiagnostics "Tester" "rising edge" spacing (rising log)
      ++ if (countDiagnostics "GPIO" (tallies log)).isEmpty then
          orderDiagnostics (toggles log) (rising log) (falling log)
        else [.skipped "GPIO" "port order"] := by
  unfold findings checkOrder
  rw [if_neg (by simpa using h)]
  dsimp only [Findings.check, Findings.error, Findings.note, Findings.checkCounts,
    Findings.checkSpacing]
  split_ifs <;> simp

theorem findings_eq_nil_iff : (findings spacing log).diagnostics = [] ↔
    toggles log ≠ [] ∧ Accepts spacing (toggles log) (rising log) (falling log) := by
  by_cases hempty : toggles log = []
  · simp [findings, hempty, Findings.error]
  · rw [diagnostics_findings hempty]
    simp only [hempty, ne_eq, not_false_iff, true_and, List.append_eq_nil_iff,
      spacingDiagnostics_eq_nil_iff]
    have hcounts : countDiagnostics "GPIO" (tallies log) = [] ↔
        (toggles log).length = (rising log).length ∧
          (toggles log).length = (falling log).length := by
      rw [tallies, countDiagnostics_eq_nil_iff]
      simp [eq_comm]
    rw [hcounts]
    constructor
    · rintro ⟨⟨⟨hu, hd⟩, hspaced⟩, horder⟩
      rw [if_pos (List.isEmpty_iff.2 (hcounts.2 ⟨hu, hd⟩)),
        orderDiagnostics_eq_nil_iff hu hd] at horder
      exact ⟨horder.1, horder.2, hspaced⟩
    · rintro ⟨hup, hdown, hspaced⟩
      have hu := length_eq_of_map_eq hup
      have hd := length_eq_of_map_eq hdown
      rw [if_pos (List.isEmpty_iff.2 (hcounts.2 ⟨hu, hd⟩)), orderDiagnostics_eq_nil_iff hu hd]
      exact ⟨⟨⟨hu, hd⟩, hspaced⟩, hup, hdown⟩

end Gpio

/-! ## CAN -/

namespace Can

variable {b : Bounds} {c : String} {sents receiveds log : List Event}

theorem payloadDiagnostics_eq_nil_iff (h : sents.length = receiveds.length) :
    payloadDiagnostics c sents receiveds = [] ↔
      sents.map Event.payload = receiveds.map Event.payload := by
  rw [← forall_mem_zip_iff h,
    ← forall_mem_zipIdx_iff (P := fun p : Event × Event => p.1.payload = p.2.payload),
    payloadDiagnostics, List.filterMap_eq_nil_iff]
  refine forall_congr' fun p => forall_congr' fun _ => ?_
  by_cases hp : p.1.1.payload = p.1.2.payload <;> simp [hp]

theorem periodDiagnostics_eq_nil_iff :
    periodDiagnostics b c receiveds = [] ↔ 2 ≤ receiveds.length ∧ receiveds.IsChain b.Apart := by
  unfold periodDiagnostics
  split
  · rename_i hfew
    refine iff_of_false (by simp) fun h => ?_
    omega
  · rename_i hmany
    rw [spacingDiagnostics_eq_nil_iff]
    exact ⟨fun h => ⟨Nat.not_lt.1 hmany, h⟩, And.right⟩

/-- What is accepted on one channel. A channel on which nothing happens is none. -/
def Accepts (b : Bounds) (sents receiveds : List Event) : Prop :=
  sents.map Event.payload = receiveds.map Event.payload ∧
    (receiveds = [] ∨ 2 ≤ receiveds.length) ∧ receiveds.IsChain b.Apart

theorem channelDiagnostics_eq_nil_iff :
    channelDiagnostics b c sents receiveds = [] ↔
      sents.map Event.payload = receiveds.map Event.payload ∧ 2 ≤ receiveds.length ∧
        receiveds.IsChain b.Apart := by
  by_cases hlen : sents.length = receiveds.length
  · have hcounts : countDiagnostics c
        [⟨"sent frames", sents.length⟩, ⟨"received frames", receiveds.length⟩] = [] :=
      countDiagnostics_eq_nil_iff.2 (by simp [hlen])
    simp only [channelDiagnostics, hcounts, List.isEmpty_nil, if_true, List.append_eq_nil_iff,
      payloadDiagnostics_eq_nil_iff hlen, periodDiagnostics_eq_nil_iff]
  · refine iff_of_false ?_ fun h => hlen (length_eq_of_map_eq h.1)
    unfold channelDiagnostics
    dsimp only
    split
    · rename_i hcounts
      have hall := countDiagnostics_eq_nil_iff.1 (List.isEmpty_iff.1 hcounts)
      exact absurd (hall _ List.mem_cons_self).symm hlen
    · simp

theorem findings_eq_nil_iff : (findings b log).diagnostics = [] ↔
    ∀ c, Accepts b (onChannel width c (sent log)) (onChannel width c (received log)) := by
  unfold findings
  dsimp only [Findings.check]
  simp only [List.nil_append, List.flatMap_eq_nil_iff, channelDiagnostics_eq_nil_iff]
  constructor
  · intro h c
    by_cases hc : c ∈ channels width [received log, sent log]
    · obtain ⟨hsame, hmany, hspaced⟩ := h c hc
      exact ⟨hsame, Or.inr hmany, hspaced⟩
    · rw [onChannel_eq_nil hc (by simp), onChannel_eq_nil hc (by simp)]
      exact ⟨rfl, Or.inl rfl, .nil⟩
  · intro h c hc
    obtain ⟨hsame, hmany, hspaced⟩ := h c
    refine ⟨hsame, hmany.resolve_left fun hnone => ?_, hspaced⟩
    -- a channel that occurs has events on one side, and so on both
    have hnone' : onChannel width c (sent log) = [] := by
      rw [hnone, List.map_nil, List.map_eq_nil_iff] at hsame
      exact hsame
    obtain ⟨events, hevents, e, he, heq⟩ := mem_channels.1 hc
    have hmem : e ∈ onChannel width c events := mem_onChannel.2 ⟨he, heq⟩
    simp only [List.mem_cons, List.not_mem_nil, or_false] at hevents
    rcases hevents with rfl | rfl
    · rw [hnone] at hmem
      cases hmem
    · rw [hnone'] at hmem
      cases hmem

end Can

/-! ## Any subsystem -/

/-- What the checks of a subsystem ask of a log, under the bounds that are configured for it. -/
def Passes (timing : TimingSettings) : Subsystem → List Event → Prop
  | .gpio, log => Gpio.toggles log ≠ [] ∧
    Gpio.Accepts timing.gpio (Gpio.toggles log) (Gpio.rising log) (Gpio.falling log)
  | .uart, log => Uart.sent log ≠ [] ∧ ∀ c, Uart.Accepts timing.uart
    (onChannel Uart.width c (Uart.sent log)) (onChannel Uart.width c (Uart.received log))
    (onChannel Uart.width c (Uart.echoed log))
  | .can, log => ∀ c, Can.Accepts timing.can
    (onChannel Can.width c (Can.sent log)) (onChannel Can.width c (Can.received log))
  | .lin, log => Lin.sent log ≠ [] ∧ Lin.received log ≠ [] ∧ ∀ c, Lin.Accepts timing.lin
    (onChannel Lin.width c (Lin.sent log)) (onChannel Lin.width c (Lin.received log))

theorem diagnostics_ofLog_eq_nil_iff {timing : TimingSettings} {sub : Subsystem}
    {log : List Event} : (ofLog timing sub log).diagnostics = [] ↔ Passes timing sub log := by
  cases sub with
  | gpio => exact Gpio.findings_eq_nil_iff
  | uart => exact Uart.findings_eq_nil_iff
  | can => exact Can.findings_eq_nil_iff
  | lin => exact Lin.findings_eq_nil_iff

/-- **A log counts against the board if it does not pass the checks or has an error in it.** -/
theorem hasErrors_ofLog {timing : TimingSettings} {sub : Subsystem} {log : List Event} :
    (ofLog timing sub log).hasErrors = true ↔
      ¬Passes timing sub log ∨ ∃ e ∈ log, e.level = .err := by
  rw [hasErrors_iff, Ne, diagnostics_ofLog_eq_nil_iff]
  simp only [ofLog, Event.isError, beq_iff_eq]

end Evaluation

end BoardBench
