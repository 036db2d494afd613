import BoardBench.Proofs.Evaluation.Streams
import Mathlib.Algebra.Ring.Int.Defs
import Mathlib.Data.List.Forall2

/-!
# Clock offsets — a verdict does not depend on when the tester's clock was started

Every device has a clock of its own, and what it shows at the beginning of a test is chance.
`Event.ahead c` is the report that the tester would have made with its clock `c` milliseconds ahead
(behind, if `c` is negative); the reports of others are not touched. An evaluation compares the
stamps of the tester with one another and with nothing else, so every check commutes with the
offset: **what is found in the log with the offset is what is found in the log, with the offset**
(`Evaluation.findingsOf_ahead`). Of the wordings, only the stamps that a spacing violation cites at
its end are different (`Evaluation.clock_offset_does_not_matter`).

Stamps are unsigned and are subtracted as signed numbers, both with 64 bits. An offset that takes a
stamp over the middle of the range changes the sign of the number that is subtracted, but as
subtraction wraps around, not the difference (`elapsed_ahead`).

The offset is a function on events before it is a relation between logs. A function can be pushed
through filters, channels and checks one at a time, and at each of them the proof is an equation
between the two orders. Only at the end the diagnostics of the two logs are compared as wordings
(`Diagnostic.SameButForStamps`), and the function is needed no more.

`stampAhead` wraps around, so that it is defined for all stamps. That no stamp of the tester does
wrap is a condition on the log (`Event.Offset`), which a clock that is set differently satisfies.
-/

set_option autoImplicit false

namespace BoardBench

/-! ## A clock that is ahead -/

/-- What the clock shows if it is `c` milliseconds ahead. It starts again after `2 ^ 64` of them. -/
def stampAhead (c : Int) (stamp : UInt64) : UInt64 :=
  UInt64.ofInt (stamp.toNat + c)

/-- The event, as reported with the tester's clock `c` milliseconds ahead. -/
def Event.ahead (c : Int) (e : Event) : Event :=
  if e.isFrom .tester then { e with timeMs := stampAhead c e.timeMs } else e

/-- The violation, with the stamps that it has with the tester's clock `c` milliseconds ahead. -/
def Diagnostic.ahead (c : Int) : Diagnostic → Diagnostic
  | .plain text => .plain text
  | .missing what => .missing what
  | .counts channel reference other => .counts channel reference other
  | .spacing channel what position bounds previous current =>
    .spacing channel what position bounds (stampAhead c previous) (stampAhead c current)
  | .skipped channel check => .skipped channel check
  | .pins pair left right position => .pins pair left right position
  | .character channel position sent receiver received =>
    .character channel position (sent.ahead c) receiver (received.ahead c)
  | .payload channel position sent received =>
    .payload channel position (sent.ahead c) (received.ahead c)
  | .frame channel position sent received =>
    .frame channel position (sent.ahead c) (received.ahead c)
  | .fewFrames channel => .fewFrames channel

def Findings.ahead (c : Int) (f : Findings) : Findings :=
  { f with diagnostics := f.diagnostics.map (Diagnostic.ahead c) }

variable {c : Int}

theorem stampAhead_eq_add (stamp : UInt64) : stampAhead c stamp = stamp + UInt64.ofInt c := by
  have hself : UInt64.ofInt stamp.toNat = stamp := by
    rw [← UInt64.toNat_inj, UInt64.ofInt, UInt64.toNat_ofNat']
    have := stamp.toNat_lt
    omega
  rw [stampAhead, UInt64.ofInt_add, hself]

theorem toNat_stampAhead (stamp : UInt64) :
    ((stampAhead c stamp).toNat : Int) = (stamp.toNat + c) % 2 ^ 64 := by
  rw [stampAhead, UInt64.ofInt, UInt64.toNat_ofNat']
  omega

/-- **The time from one stamp to another is the same whatever the clock showed first.** -/
theorem elapsed_ahead (previous current : UInt64) :
    elapsed (stampAhead c previous) (stampAhead c current) = elapsed previous current := by
  rw [elapsed, stampAhead_eq_add, stampAhead_eq_add, UInt64.toInt64_add, UInt64.toInt64_add]
  have hcancel : ∀ x y z : Int64, y + z - (x + z) = y - x := by
    intro x y z
    grind
  rw [hcancel, elapsed]

namespace Event

@[simp] theorem isFrom_ahead (e : Event) (r : Role) : (e.ahead c).isFrom r = e.isFrom r := by
  unfold ahead
  split
  · rfl
  · rfl

@[simp] theorem isError_ahead (e : Event) : (e.ahead c).isError = e.isError := by
  unfold ahead
  split
  · rfl
  · rfl

@[simp] theorem payload_ahead (e : Event) : (e.ahead c).payload = e.payload := by
  unfold ahead
  split
  · rfl
  · rfl

@[simp] theorem mentions_ahead (e : Event) (part : String) :
    (e.ahead c).mentions part = e.mentions part := by
  rw [mentions, payload_ahead, mentions]

@[simp] theorem lastChar_ahead (e : Event) : (e.ahead c).lastChar = e.lastChar := by
  rw [lastChar, payload_ahead, lastChar]

@[simp] theorem shownLast_ahead (e : Event) : (e.ahead c).shownLast = e.shownLast := by
  rw [shownLast, lastChar_ahead, shownLast]

@[simp] theorem channel_ahead (width : Nat) (e : Event) :
    (e.ahead c).channel width = e.channel width := by
  rw [channel, payload_ahead, channel]

theorem timeMs_ahead {e : Event} (h : e.isFrom .tester = true) :
    (e.ahead c).timeMs = stampAhead c e.timeMs := by
  rw [ahead, if_pos h]

end Event

/-! ## Selections, channels and checks commute with the offset -/

theorem selected_ahead {p : Event → Bool} (hp : ∀ e, p (e.ahead c) = p e) (r : Role)
    (log : List Event) :
    selected r p (log.map (Event.ahead c)) = (selected r p log).map (Event.ahead c) := by
  rw [selected, List.filter_map, selected]
  refine congrArg _ (List.filter_congr fun e _ => ?_)
  show ((e.ahead c).isFrom r && p (e.ahead c)) = (e.isFrom r && p e)
  rw [Event.isFrom_ahead, hp]

theorem onChannel_ahead (width : Nat) (channel : String) (events : List Event) :
    onChannel width channel (events.map (Event.ahead c)) =
      (onChannel width channel events).map (Event.ahead c) := by
  rw [onChannel, List.filter_map, onChannel]
  exact congrArg _ (List.filter_congr fun e _ => by simp)

theorem channels_ahead (width : Nat) (categories : List (List Event)) :
    channels width (categories.map (List.map (Event.ahead c))) = channels width categories := by
  rw [channels, ← List.map_flatten, List.map_map, channels]
  exact congrArg _ (List.map_congr_left fun e _ => Event.channel_ahead width e)

/-- All of these are reports of the tester. -/
def FromTester (events : List Event) : Prop :=
  ∀ e ∈ events, e.isFrom .tester = true

theorem fromTester_selected (p : Event → Bool) (log : List Event) :
    FromTester (selected .tester p log) := by
  intro e he
  obtain ⟨-, hrole⟩ := List.mem_filter.1 he
  exact (Bool.and_eq_true_iff.1 hrole).1

theorem FromTester.onChannel {events : List Event} (h : FromTester events) (width : Nat)
    (channel : String) : FromTester (onChannel width channel events) :=
  fun e he => h e (mem_onChannel.1 he).1

/-- A check of pairs that commutes with the offset pair by pair commutes with it. -/
theorem pairs_ahead {f : (Event × Event) × Nat → Option Diagnostic} {xs ys : List Event}
    (hf : ∀ x ∈ xs, ∀ y ∈ ys, ∀ i,
      f ((x.ahead c, y.ahead c), i) = (f ((x, y), i)).map (Diagnostic.ahead c)) :
    (((xs.map (Event.ahead c)).zip (ys.map (Event.ahead c))).zipIdx.filterMap f) =
      ((xs.zip ys).zipIdx.filterMap f).map (Diagnostic.ahead c) := by
  rw [List.zip_map, List.zipIdx_map, List.filterMap_map, List.map_filterMap]
  refine List.filterMap_congr fun p hp => ?_
  obtain ⟨hx, hy⟩ := List.of_mem_zip (List.fst_mem_of_mem_zipIdx hp)
  exact hf p.1.1 hx p.1.2 hy p.2

theorem triples_ahead {f : ((Event × Event) × Event) × Nat → List Diagnostic}
    (hf : ∀ x y z i, f (((x.ahead c, y.ahead c), z.ahead c), i) =
      (f (((x, y), z), i)).map (Diagnostic.ahead c)) (xs ys zs : List Event) :
    ((((xs.map (Event.ahead c)).zip (ys.map (Event.ahead c))).zip
        (zs.map (Event.ahead c))).zipIdx.flatMap f) =
      (((xs.zip ys).zip zs).zipIdx.flatMap f).map (Diagnostic.ahead c) := by
  rw [List.zip_map, List.zip_map, List.zipIdx_map, List.flatMap_map, List.map_flatMap]
  refine List.flatMap_congr fun p _ => ?_
  exact hf p.1.1.1 p.1.1.2 p.1.2 p.2

theorem countDiagnostics_ahead (channel : String) (tallies : List Tally) :
    (countDiagnostics channel tallies).map (Diagnostic.ahead c) =
      countDiagnostics channel tallies := by
  cases tallies with
  | nil => rfl
  | cons reference others =>
    rw [countDiagnostics, List.map_map]
    rfl

/-- The spacing of the tester's reports is checked alike, and violations cite the new stamps. -/
theorem spacingDiagnostics_ahead (channel what : String) (bounds : Bounds) {events : List Event}
    (h : FromTester events) :
    spacingDiagnostics channel what bounds (events.map (Event.ahead c)) =
      (spacingDiagnostics channel what bounds events).map (Diagnostic.ahead c) := by
  rw [spacingDiagnostics, ← List.map_tail, spacingDiagnostics]
  apply pairs_ahead
  intro previous hprevious current hcurrent i
  have hcurrent' : current ∈ events := List.mem_of_mem_tail hcurrent
  simp only [Event.timeMs_ahead (h previous hprevious), Event.timeMs_ahead (h current hcurrent'),
    elapsed_ahead]
  split
  · rfl
  · rfl

namespace Findings

theorem ahead_check (ds : List Diagnostic) (f : Findings) :
    (f.check ds).2.ahead c = ((f.ahead c).check (ds.map (Diagnostic.ahead c))).2 := by
  simp only [ahead, check, List.map_append]

theorem ahead_error (d : Diagnostic) (f : Findings) :
    (f.error d).ahead c = (f.ahead c).error (d.ahead c) := by
  simp only [ahead, error, List.map_append, List.map_singleton]

theorem ahead_note (text : String) (f : Findings) :
    (f.note text).ahead c = (f.ahead c).note text :=
  rfl

end Findings

namespace Evaluation

/-! ### LIN -/

namespace Lin

theorem channelDiagnostics_ahead (spacing : Bounds) (channel : String) (sents : List Event)
    {receiveds : List Event} (h : FromTester receiveds) :
    channelDiagnostics spacing channel (sents.map (Event.ahead c)) (receiveds.map (Event.ahead c)) =
      (channelDiagnostics spacing channel sents receiveds).map (Diagnostic.ahead c) := by
  simp only [channelDiagnostics, List.length_map]
  split
  · rw [List.map_append, spacingDiagnostics_ahead channel "frame" spacing h]
    refine congrArg (· ++ _) (pairs_ahead fun s _ r _ i => ?_)
    simp only [Event.lastChar_ahead]
    split
    · rfl
    · rfl
  · rw [List.map_append, countDiagnostics_ahead]
    rfl

theorem findings_ahead (spacing : Bounds) (log : List Event) :
    findings spacing (log.map (Event.ahead c)) = (findings spacing log).ahead c := by
  have hsent : sent (log.map (Event.ahead c)) = (sent log).map (Event.ahead c) :=
    selected_ahead (by simp) .sut log
  have hreceived : received (log.map (Event.ahead c)) = (received log).map (Event.ahead c) :=
    selected_ahead (by simp) .tester log
  have hmissing : missingDiagnostics ((sent log).map (Event.ahead c))
      ((received log).map (Event.ahead c)) = missingDiagnostics (sent log) (received log) := by
    rw [missingDiagnostics, List.isEmpty_map, List.isEmpty_map, missingDiagnostics]
  have hfixed : (missingDiagnostics (sent log) (received log)).map (Diagnostic.ahead c) =
      missingDiagnostics (sent log) (received log) := by
    unfold missingDiagnostics
    split <;> split <;> rfl
  have hchannels := @channels_ahead c width [sent log, received log]
  rw [findings_eq, findings_eq, hsent, hreceived, hmissing]
  by_cases hp : (missingDiagnostics (sent log) (received log)).isEmpty = true
  · rw [if_pos hp, if_pos hp, Findings.ahead_check, Findings.ahead_check, hfixed, List.map_flatMap]
    refine congrArg (fun ds => (Findings.check ds _).2) ?_
    rw [← hchannels]
    refine List.flatMap_congr fun channel _ => ?_
    rw [onChannel_ahead, onChannel_ahead]
    exact channelDiagnostics_ahead spacing channel _ ((fromTester_selected _ log).onChannel _ _)
  · rw [if_neg hp, if_neg hp, Findings.ahead_check, hfixed]
    rfl

end Lin

/-! ### UART -/

namespace Uart

theorem mismatch_ahead (channel : String) (i : Nat) (s : Event) (receiver : String) (r : Event) :
    mismatch channel i (s.ahead c) receiver (r.ahead c) =
      (mismatch channel i s receiver r).map (Diagnostic.ahead c) := by
  rw [mismatch, Event.lastChar_ahead, Event.lastChar_ahead, mismatch]
  split
  · rfl
  · rfl

theorem channelDiagnostics_ahead (spacing : Option Bounds) (channel : String) {sents : List Event}
    (receiveds echoes : List Event) (h : FromTester sents) :
    channelDiagnostics spacing channel (sents.map (Event.ahead c)) (receiveds.map (Event.ahead c))
        (echoes.map (Event.ahead c)) =
      (channelDiagnostics spacing channel sents receiveds echoes).map (Diagnostic.ahead c) := by
  simp only [channelDiagnostics, List.length_map]
  split
  · rw [List.map_append]
    congr 1
    · refine triples_ahead (fun s r e i => ?_) sents receiveds echoes
      simp only [mismatch_ahead, List.map_append]
    · split
      · exact spacingDiagnostics_ahead channel "send" _ h
      · rfl
  · rw [List.map_append, countDiagnostics_ahead]
    rfl

theorem findings_ahead (spacing : Option Bounds) (log : List Event) :
    findings spacing (log.map (Event.ahead c)) = (findings spacing log).ahead c := by
  have hsent : sent (log.map (Event.ahead c)) = (sent log).map (Event.ahead c) :=
    selected_ahead (by simp) .tester log
  have hreceived : received (log.map (Event.ahead c)) = (received log).map (Event.ahead c) :=
    selected_ahead (by simp) .sut log
  have hechoed : echoed (log.map (Event.ahead c)) = (echoed log).map (Event.ahead c) :=
    selected_ahead (by simp) .tester log
  have hchannels := @channels_ahead c width [sent log, echoed log, received log]
  simp only [findings, hsent, hreceived, hechoed, List.isEmpty_map]
  split
  · rw [Findings.ahead_error]
    rfl
  · rw [Findings.ahead_check, List.map_flatMap]
    refine congrArg (fun ds => (Findings.check ds _).2) ?_
    rw [← hchannels]
    refine List.flatMap_congr fun channel _ => ?_
    rw [onChannel_ahead, onChannel_ahead, onChannel_ahead]
    exact channelDiagnostics_ahead spacing channel _ _ ((fromTester_selected _ log).onChannel _ _)

end Uart

/-! ### GPIO -/

namespace Gpio

theorem toggles_ahead (log : List Event) :
    toggles (log.map (Event.ahead c)) = (toggles log).map (Event.ahead c) :=
  selected_ahead (by simp) .sut log

theorem rising_ahead (log : List Event) :
    rising (log.map (Event.ahead c)) = (rising log).map (Event.ahead c) :=
  selected_ahead (by simp) .tester log

theorem falling_ahead (log : List Event) :
    falling (log.map (Event.ahead c)) = (falling log).map (Event.ahead c) :=
  selected_ahead (by simp) .tester log

theorem tallies_ahead (log : List Event) : tallies (log.map (Event.ahead c)) = tallies log := by
  simp only [tallies, toggles_ahead, rising_ahead, falling_ahead, List.length_map]

theorem orderDiagnostics_ahead (toggled ups downs : List Event) :
    orderDiagnostics (toggled.map (Event.ahead c)) (ups.map (Event.ahead c))
        (downs.map (Event.ahead c)) =
      (orderDiagnostics toggled ups downs).map (Diagnostic.ahead c) := by
  have hpin : ∀ pair left right i,
      (pinMismatch pair left right i).map (Diagnostic.ahead c) = pinMismatch pair left right i := by
    intro pair left right i
    unfold pinMismatch
    split
    · rfl
    · rfl
  refine triples_ahead (fun t u d i => ?_) toggled ups downs
  simp only [pinDiagnostics, pin, Event.channel_ahead, List.map_append, hpin]

theorem checkOrder_ahead (log : List Event) (countsAgree : Bool) (f : Findings) :
    checkOrder (log.map (Event.ahead c)) countsAgree (f.ahead c) =
      (checkOrder log countsAgree f).ahead c := by
  unfold checkOrder
  split
  · show Findings.note (if (orderDiagnostics (toggles (log.map (Event.ahead c)))
        (rising (log.map (Event.ahead c))) (falling (log.map (Event.ahead c)))).isEmpty then
          "Port order is OK" else "Port order has ERRORs") _ = _
    rw [toggles_ahead, rising_ahead, falling_ahead, orderDiagnostics_ahead, List.isEmpty_map]
    simp only [Findings.ahead, Findings.check, Findings.note, List.map_append]
    rfl
  · rw [Findings.ahead_error]
    rfl

/-- What is found before the order of the pins is checked. -/
def beforeOrder (spacing : Bounds) (log : List Event) : Findings :=
  let f := Findings.note ("Found " ++ Text.decimal (rising log).length ++ " rising edges on Tester")
    {}
  let f := f.note ("Found " ++ Text.decimal (falling log).length ++ " falling edges on Tester")
  let f := (f.check (countDiagnostics "GPIO" (tallies log))).2
  let f := (f.check (spacingDiagnostics "Tester" "rising edge" spacing (rising log))).2
  if (spacingDiagnostics "Tester" "rising edge" spacing (rising log)).isEmpty then f
  else f.note ("Rising edge timing not in interval [" ++ Text.signedDecimal spacing.min ++ ", "
    ++ Text.signedDecimal spacing.max ++ "]")

theorem findings_eq (spacing : Bounds) (log : List Event) : findings spacing log =
    if (toggles log).isEmpty then Findings.error (.missing "pin toggles on SUT") {}
    else checkOrder log (countDiagnostics "GPIO" (tallies log)).isEmpty
      (beforeOrder spacing log) :=
  rfl

theorem beforeOrder_ahead (spacing : Bounds) (log : List Event) :
    beforeOrder spacing (log.map (Event.ahead c)) = (beforeOrder spacing log).ahead c := by
  have hspacing : spacingDiagnostics "Tester" "rising edge" spacing
        ((rising log).map (Event.ahead c)) =
      (spacingDiagnostics "Tester" "rising edge" spacing (rising log)).map (Diagnostic.ahead c) :=
    spacingDiagnostics_ahead _ _ _ (fromTester_selected _ log)
  unfold beforeOrder
  simp only [tallies_ahead, rising_ahead, falling_ahead, List.length_map, hspacing,
    List.isEmpty_map]
  split
  · rw [Findings.ahead_check, Findings.ahead_check, countDiagnostics_ahead]
    rfl
  · rw [Findings.ahead_note, Findings.ahead_check, Findings.ahead_check, countDiagnostics_ahead]
    rfl

theorem findings_ahead (spacing : Bounds) (log : List Event) :
    findings spacing (log.map (Event.ahead c)) = (findings spacing log).ahead c := by
  rw [findings_eq, findings_eq, toggles_ahead, tallies_ahead, beforeOrder_ahead, List.isEmpty_map]
  split
  · rw [Findings.ahead_error]
    rfl
  · rw [checkOrder_ahead]

end Gpio

/-! ### CAN -/

namespace Can

theorem channelDiagnostics_ahead (spacing : Bounds) (channel : String) (sents : List Event)
    {receiveds : List Event} (h : FromTester receiveds) :
    channelDiagnostics spacing channel (sents.map (Event.ahead c)) (receiveds.map (Event.ahead c)) =
      (channelDiagnostics spacing channel sents receiveds).map (Diagnostic.ahead c) := by
  simp only [channelDiagnostics, periodDiagnostics, List.length_map]
  split
  · rw [List.map_append]
    congr 1
    · refine pairs_ahead fun s _ r _ i => ?_
      simp only [Event.payload_ahead]
      split
      · rfl
      · rfl
    · split
      · rfl
      · exact spacingDiagnostics_ahead channel "frame" spacing h
  · rw [List.map_append, countDiagnostics_ahead]
    rfl

theorem findings_ahead (spacing : Bounds) (log : List Event) :
    findings spacing (log.map (Event.ahead c)) = (findings spacing log).ahead c := by
  have hsent : sent (log.map (Event.ahead c)) = (sent log).map (Event.ahead c) :=
    selected_ahead (by simp) .sut log
  have hreceived : received (log.map (Event.ahead c)) = (received log).map (Event.ahead c) :=
    selected_ahead (by simp) .tester log
  have hchannels := @channels_ahead c width [received log, sent log]
  simp only [findings, hsent, hreceived]
  rw [Findings.ahead_check, List.map_flatMap]
  refine congrArg (fun ds => (Findings.check ds _).2) ?_
  rw [← hchannels]
  refine List.flatMap_congr fun channel _ => ?_
  rw [onChannel_ahead, onChannel_ahead]
  exact channelDiagnostics_ahead spacing channel _ ((fromTester_selected _ log).onChannel _ _)

end Can

theorem findingsOf_ahead (timing : TimingSettings) (s : Subsystem) (log : List Event) :
    findingsOf timing s (log.map (Event.ahead c)) = (findingsOf timing s log).ahead c := by
  cases s with
  | gpio => exact Gpio.findings_ahead timing.gpio log
  | uart => exact Uart.findings_ahead timing.uart log
  | can => exact Can.findings_ahead timing.can log
  | lin => exact Lin.findings_ahead timing.lin log

end Evaluation

/-! ## Wordings -/

/-- The same wording, except that a spacing violation cites stamps that are `c` more (on a clock
that counts to `2 ^ 64`). -/
def Diagnostic.SameButForStamps (c : Int) (d d' : Diagnostic) : Prop :=
  d'.message = d.message ∨
    ∃ channel what position bounds previous current previous' current',
      d = .spacing channel what position bounds previous current ∧
        d' = .spacing channel what position bounds previous' current' ∧
        (previous'.toNat : Int) = (previous.toNat + c) % 2 ^ 64 ∧
        (current'.toNat : Int) = (current.toNat + c) % 2 ^ 64 ∧
        ∃ front : String,
          d.message = front ++ Text.decimal previous.toNat ++ "ms, current: "
            ++ Text.decimal current.toNat ++ "ms)" ∧
          d'.message = front ++ Text.decimal previous'.toNat ++ "ms, current: "
            ++ Text.decimal current'.toNat ++ "ms)"

theorem Diagnostic.sameButForStamps_ahead (d : Diagnostic) : d.SameButForStamps c (d.ahead c) := by
  cases d with
  | spacing channel what position bounds previous current =>
    right
    refine ⟨channel, what, position, bounds, previous, current, _, _, rfl, rfl,
      toNat_stampAhead previous, toNat_stampAhead current, _, rfl, ?_⟩
    -- the time between the stamps stands in the front
    delta Diagnostic.message
    simp only [Diagnostic.ahead, elapsed_ahead]
  | character channel position sent receiver received =>
    left
    delta Diagnostic.message
    simp only [Diagnostic.ahead, Event.shownLast_ahead]
  | payload channel position sent received =>
    left
    delta Diagnostic.message
    simp only [Diagnostic.ahead, Event.payload_ahead]
  | frame channel position sent received =>
    left
    delta Diagnostic.message
    simp only [Diagnostic.ahead, Event.payload_ahead, Event.shownLast_ahead]
  | plain | missing | counts | skipped | pins | fewFrames => exact Or.inl rfl

/-! ## The verdict -/

/-- The second event is the first, with `c` more on the stamp if it is the tester's. -/
structure Event.Offset (c : Int) (e e' : Event) : Prop where
  level : e'.level = e.level
  device : e'.device = e.device
  payload : e'.payload = e.payload
  stamp : (e'.timeMs.toNat : Int) =
    if e.isFrom .tester then e.timeMs.toNat + c else e.timeMs.toNat

theorem Event.Offset.eq_ahead {e e' : Event} (h : e.Offset c e') : e' = e.ahead c := by
  obtain ⟨hlevel, hdevice, hpayload, hstamp⟩ := h
  obtain ⟨stamp', level', device', payload'⟩ := e'
  cases hlevel
  cases hdevice
  cases hpayload
  unfold Event.ahead
  split
  · rename_i htester
    rw [if_pos htester] at hstamp
    have hlt := stamp'.toNat_lt
    have heq : stamp' = stampAhead c e.timeMs := by
      rw [← UInt64.toNat_inj]
      have := @toNat_stampAhead c e.timeMs
      simp only at hstamp
      omega
    rw [heq]
  · rename_i htester
    rw [if_neg htester] at hstamp
    have heq : stamp' = e.timeMs := UInt64.toNat_inj.1 (by exact_mod_cast hstamp)
    rw [heq]

theorem map_ahead_of_offset {log log' : List Event} (h : List.Forall₂ (Event.Offset c) log log') :
    log' = log.map (Event.ahead c) := by
  induction h with
  | nil => rfl
  | cons hhead _ ih => rw [List.map_cons, ← hhead.eq_ahead, ← ih]

namespace Evaluation

/-- **What the tester's clock shows at the start does not matter.** If every stamp of the tester is
`c` more, and all else is the same, then every evaluation comes to the same verdict with the same
notes and as many violations, and the violations are the same, one by one, except for the stamps
that a spacing violation cites. -/
theorem clock_offset_does_not_matter (timing : TimingSettings) (s : Subsystem) {c : Int}
    {log log' : List Event} (h : List.Forall₂ (Event.Offset c) log log') :
    (ofLog timing s log').hasErrors = (ofLog timing s log).hasErrors ∧
      (ofLog timing s log').notes = (ofLog timing s log).notes ∧
      (ofLog timing s log').diagnostics.length = (ofLog timing s log).diagnostics.length ∧
      List.Forall₂ (Diagnostic.SameButForStamps c) (ofLog timing s log).diagnostics
        (ofLog timing s log').diagnostics := by
  obtain rfl := map_ahead_of_offset h
  have hfindings := @findingsOf_ahead c timing s log
  have hdiagnostics : (ofLog timing s (log.map (Event.ahead c))).diagnostics =
      (ofLog timing s log).diagnostics.map (Diagnostic.ahead c) :=
    congrArg Findings.diagnostics hfindings
  have hfound : (ofLog timing s (log.map (Event.ahead c))).findings.notes =
      (ofLog timing s log).findings.notes :=
    (congrArg Findings.notes hfindings).trans rfl
  have hserial : (ofLog timing s (log.map (Event.ahead c))).serialErrors =
      (ofLog timing s log).serialErrors.map (Event.ahead c) := by
    show (log.map (Event.ahead c)).filter Event.isError = (log.filter Event.isError).map _
    rw [List.filter_map]
    exact congrArg _ (List.filter_congr fun e _ => Event.isError_ahead e)
  refine ⟨?_, ?_, ?_, ?_⟩
  · rw [hasErrors, hdiagnostics, hserial, List.isEmpty_map, List.isEmpty_map, hasErrors]
  · rw [notes, closingNotes, hfound, hdiagnostics, hserial, List.isEmpty_map, List.isEmpty_map,
      List.length_map, List.length_map, notes, closingNotes]
  · rw [hdiagnostics, List.length_map]
  · rw [hdiagnostics, List.forall₂_map_right_iff, List.forall₂_same]
    exact fun d _ => d.sameButForStamps_ahead

/-- Two frames, the second too late, as the tester reports them with a clock that has just gone
over the middle of its range. -/
def lateFrameLog (start : UInt64) : List Event :=
  [⟨7, .inf, "sut", "can@40006400 id 1"⟩, ⟨start, .inf, "tester", "can@40006400 id 1"⟩,
    ⟨9, .inf, "SUT", "can@40006400 id 2"⟩, ⟨start + 900, .err, "Tester", "can@40006400 id 3"⟩]

/-- Half a second short of the middle of the range. -/
def lateStart : UInt64 := 9223372036854775308

theorem clock_offset_over_the_middle_does_not_matter :
    List.Forall₂ (Event.Offset (2 ^ 63 - 500)) (lateFrameLog 0) (lateFrameLog lateStart) ∧
      (ofLog {} .can (lateFrameLog lateStart)).hasErrors =
        (ofLog {} .can (lateFrameLog 0)).hasErrors ∧
      (ofLog {} .can (lateFrameLog lateStart)).notes = (ofLog {} .can (lateFrameLog 0)).notes ∧
      (ofLog {} .can (lateFrameLog lateStart)).diagnostics.length =
        (ofLog {} .can (lateFrameLog 0)).diagnostics.length ∧
      List.Forall₂ (Diagnostic.SameButForStamps (2 ^ 63 - 500))
        (ofLog {} .can (lateFrameLog 0)).diagnostics
        (ofLog {} .can (lateFrameLog lateStart)).diagnostics := by
  have h : List.Forall₂ (Event.Offset (2 ^ 63 - 500)) (lateFrameLog 0) (lateFrameLog lateStart) :=
    .cons ⟨rfl, rfl, rfl, by decide +kernel⟩ (.cons ⟨rfl, rfl, rfl, by decide +kernel⟩
      (.cons ⟨rfl, rfl, rfl, by decide +kernel⟩ (.cons ⟨rfl, rfl, rfl, by decide +kernel⟩ .nil)))
  exact ⟨h, clock_offset_does_not_matter {} .can h⟩

end Evaluation

end BoardBench
