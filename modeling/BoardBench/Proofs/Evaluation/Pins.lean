import BoardBench.Proofs.Evaluation.Breakdown

/-!
# Pins — what is reported of a GPIO test

The pins are not sorted by channel: they are switched one after the other, and the order is what is
checked. So a report on them has other parts than one on a bus. First come the numbers of edges that
are not that of the pins, then the rising edges that are not the right time apart, and then the
order, position by position, if the numbers agree at all.

At each position three pins are compared, two at a time. **There are two lines if one of the three
is the odd one out, and three if no two of them agree** (`length_mismatches`).

The report is written down as lists that are appended and not as conditions on its members, because
here the parts do depend on one another: the numbers decide whether the order is looked at, and the
line that says that it is not stands where the order would have been. What is left to positions is
the order itself, where a position may contribute several lines (`PieceByPiece`).

The notes are part of the statement. They say what was checked and found right, and a note in the
wrong place is as misleading as a violation that is not there.
-/

set_option autoImplicit false

namespace BoardBench.Evaluation.Gpio

variable {b : Bounds} {toggled ups downs log : List Event}

/-- The pins that the board under test says it switched on. -/
def switchedOn (log : List Event) : List Event :=
  log.filter fun e => e.isFrom .sut && (e.mentions "gpio@" && Text.endsWith e.payload "on")

/-- The edges of a kind that the tester says it saw. -/
def edges (kind : String) (log : List Event) : List Event :=
  log.filter fun e => e.isFrom .tester && (e.mentions "gpio@" && e.mentions kind)

/-! ## The numbers -/

/-- The lines for the numbers of edges that are not that of the pins. -/
def countLines (toggled ups downs : List Event) : List Diagnostic :=
  countLine "GPIO" ⟨"pin toggles on SUT", toggled.length⟩ ⟨"rising edges on Tester", ups.length⟩ ++
    countLine "GPIO" ⟨"pin toggles on SUT", toggled.length⟩
      ⟨"falling edges on Tester", downs.length⟩

theorem countDiagnostics_tallies : countDiagnostics "GPIO" (tallies log) =
    countLines (toggles log) (rising log) (falling log) := by
  rw [tallies, countDiagnostics_cons_cons, countDiagnostics_pair, countLines]

theorem countLines_eq_nil_iff : countLines toggled ups downs = [] ↔
    ups.length = toggled.length ∧ downs.length = toggled.length := by
  rw [countLines, List.append_eq_nil_iff, countLine_eq_nil_iff, countLine_eq_nil_iff]

/-! ## The order -/

/-- How many lines there are for three pins that should be one. -/
def linesFor (toggled up down : String) : Nat :=
  if toggled = up ∧ toggled = down then 0
  else if toggled = up ∨ toggled = down ∨ up = down then 2
  else 3

/-- **Of three pins, one that differs makes two lines, and three that differ make three.** -/
theorem length_mismatches (t u d : String) (i : Nat) :
    (pinMismatch .risingFalling u d i ++ pinMismatch .risingToggled u t i ++
      pinMismatch .fallingToggled d t i).length = linesFor t u d := by
  unfold pinMismatch linesFor
  by_cases htu : t = u
  · subst htu
    by_cases htd : t = d
    · subst htd
      simp
    · simp [htd, Ne.symm htd]
  · by_cases htd : t = d
    · subst htd
      simp [htu, Ne.symm htu]
    · by_cases hud : u = d
      · subst hud
        simp [htu, Ne.symm htu]
      · simp [htu, htd, hud, Ne.symm htu, Ne.symm htd]

/-- What is to be said of the pins at some position: each pair of them that differs. -/
def Unmatched (toggled ups downs : List Event) (i : Nat) (ds : List Diagnostic) : Prop :=
  ∃ t u d, (toggled[i]?.map (Event.channel 19) = some t ∧ ups[i]?.map (Event.channel 19) = some u ∧
      downs[i]?.map (Event.channel 19) = some d) ∧
    ds = (if u = d then [] else [.pins .risingFalling u d i]) ++
      (if u = t then [] else [.pins .risingToggled u t i]) ++
      (if d = t then [] else [.pins .fallingToggled d t i]) ∧
    ds.length = linesFor t u d ∧ ds.length ≠ 1

theorem pieceByPiece_order (hu : toggled.length = ups.length) (hd : toggled.length = downs.length) :
    PieceByPiece toggled.length (Unmatched toggled ups downs)
      (orderDiagnostics toggled ups downs) := by
  obtain ⟨piece, hds, hpiece⟩ := pieceByPiece_zip_zip
    (fun p => pinDiagnostics p.1.1.1 p.1.1.2 p.1.2 p.2) hu hd
  refine ⟨piece, hds, fun i hi => ?_⟩
  obtain ⟨t, u, d, ht, hu, hd, heq⟩ := hpiece i hi
  have hlength : (piece i).length = linesFor (pin t) (pin u) (pin d) := by
    rw [heq]
    exact length_mismatches (pin t) (pin u) (pin d) i
  refine ⟨pin t, pin u, pin d, ⟨?_, ?_, ?_⟩, heq, hlength, ?_⟩
  · rw [ht]
    rfl
  · rw [hu]
    rfl
  · rw [hd]
    rfl
  · rw [hlength, linesFor]
    split_ifs <;> decide

/-! ## The whole report -/

/-- The notes on how many edges there are. -/
def edgeNotes (ups downs : List Event) : List String :=
  ["Found " ++ Text.decimal ups.length ++ " rising edges on Tester",
    "Found " ++ Text.decimal downs.length ++ " falling edges on Tester"]

/-- The note that something is wrong with the timing, if it is. -/
def timingNotes (b : Bounds) (late : List Diagnostic) : List String :=
  if late = [] then []
  else ["Rising edge timing not in interval [" ++ Text.signedDecimal b.min ++ ", " ++
    Text.signedDecimal b.max ++ "]"]

/-- What is reported and noted of a test in which pins were switched on: each pair of rising edges
that is not the right time apart, and behind that, if there are as many edges of either kind as
pins, what there is to be said of the order, position by position. If there are not, the numbers
that differ come first, and instead of the order comes the line that it is not checked. -/
def ReportsPins (b : Bounds) (toggled ups downs : List Event) (f : Findings) : Prop :=
  ∃ late, OnePerPosition (OutOfStep "Tester" "rising edge" b ups) late ∧
    if ups.length = toggled.length ∧ downs.length = toggled.length then
      ∃ order, PieceByPiece toggled.length (Unmatched toggled ups downs) order ∧
        f.diagnostics = late ++ order ∧
        f.notes = edgeNotes ups downs ++ timingNotes b late ++
          [if order = [] then "Port order is OK" else "Port order has ERRORs"]
    else
      f.diagnostics = countLines toggled ups downs ++ late ++ [.skipped "GPIO" "port order"] ∧
        f.notes = edgeNotes ups downs ++ timingNotes b late

theorem notes_findings (h : toggles log ≠ []) : (findings b log).notes =
    edgeNotes (rising log) (falling log) ++
      timingNotes b (spacingDiagnostics "Tester" "rising edge" b (rising log)) ++
      if countDiagnostics "GPIO" (tallies log) = [] then
        [if orderDiagnostics (toggles log) (rising log) (falling log) = [] then "Port order is OK"
          else "Port order has ERRORs"]
      else [] := by
  unfold findings checkOrder timingNotes
  rw [if_neg (by simpa using h)]
  dsimp only [Findings.check, Findings.error, Findings.note, Findings.checkCounts,
    Findings.checkSpacing]
  simp only [List.isEmpty_iff]
  split_ifs <;> rfl

theorem reportsPins (h : toggles log ≠ []) (hnear : (rising log).IsChain Event.Near) :
    ReportsPins b (toggles log) (rising log) (falling log) (findings b log) := by
  refine ⟨_, onePerPosition_spacing hnear, ?_⟩
  rw [diagnostics_findings h, notes_findings h]
  simp only [List.isEmpty_iff, countDiagnostics_tallies, countLines_eq_nil_iff]
  split
  · rename_i hlen
    refine ⟨_, pieceByPiece_order hlen.1.symm hlen.2.symm, ?_, rfl⟩
    rw [countLines_eq_nil_iff.2 hlen, List.nil_append]
  · exact ⟨rfl, List.append_nil _⟩

/-- **The verdict on a GPIO test is sound and complete.** Let the times between neighbouring rising
edges fit into a signed 64-bit number. Then nothing is reported if and only if pins were switched
on, the tester saw the edges of both kinds on the same pins in the same order, and the rising ones
are the right time apart.

If no pin was switched on, this is all that is reported, and nothing is noted. Otherwise the report
and the notes are as `ReportsPins` has it. -/
theorem gpio_test_reports_each_violation_once (timing : TimingSettings) (log : List Event)
    (hnear : (edges "rising" log).IsChain Event.Near) :
    (∀ e : Event, e.HasChannel 19 (e.channel 19)) ∧
    ((ofLog timing .gpio log).diagnostics = [] ↔
      switchedOn log ≠ [] ∧
        (switchedOn log).map (Event.channel 19) = (edges "rising" log).map (Event.channel 19) ∧
        (switchedOn log).map (Event.channel 19) = (edges "falling" log).map (Event.channel 19) ∧
        (edges "rising" log).IsChain timing.gpio.Spaced) ∧
    (switchedOn log = [] →
      (ofLog timing .gpio log).findings =
        { diagnostics := [.missing "pin toggles on SUT"], notes := [] }) ∧
    (switchedOn log ≠ [] →
      ReportsPins timing.gpio (switchedOn log) (edges "rising" log) (edges "falling" log)
        (ofLog timing .gpio log).findings) := by
  refine ⟨fun e => e.hasChannel_channel 19, ?_, fun hnone => ?_, fun hsome => ?_⟩
  · have hds : (ofLog timing .gpio log).diagnostics = (findings timing.gpio log).diagnostics := rfl
    rw [hds, findings_eq_nil_iff]
    refine and_congr_right fun _ => and_congr_right fun _ => and_congr_right fun _ => ?_
    exact isChain_apart_iff hnear
  · have hempty : (toggles log).isEmpty = true := List.isEmpty_iff.2 hnone
    show findings timing.gpio log = _
    unfold findings
    rw [if_pos hempty]
    rfl
  · exact reportsPins hsome hnear

/-- Three pins, of which the second was wired to another one, and the third to two; its edge also
came late. -/
def crossedPins : List Event :=
  [⟨1, .inf, "sut", "gpio@48000800 pin 1 on"⟩,
    ⟨100, .inf, "tester", "gpio@48000800 pin 1 rising"⟩,
    ⟨110, .inf, "tester", "gpio@48000800 pin 1 falling"⟩,
    ⟨21, .inf, "sut", "gpio@48000800 pin 2 on"⟩,
    ⟨120, .inf, "tester", "gpio@48000800 pin 4 rising"⟩,
    ⟨130, .inf, "tester", "gpio@48000800 pin 4 falling"⟩,
    ⟨41, .inf, "sut", "gpio@48000800 pin 3 on"⟩,
    ⟨150, .inf, "tester", "gpio@48000800 pin 5 rising"⟩,
    ⟨160, .inf, "tester", "gpio@48000800 pin 6 falling"⟩]

theorem crossedPins_are_reported :
    (ofLog {} .gpio crossedPins).diagnostics ≠ [] ∧
      (ofLog {} .gpio []).findings =
        { diagnostics := [.missing "pin toggles on SUT"], notes := [] } ∧
      ReportsPins ⟨17, 23⟩ (switchedOn crossedPins) (edges "rising" crossedPins)
        (edges "falling" crossedPins) (ofLog {} .gpio crossedPins).findings := by
  obtain ⟨-, hnone, -, hreports⟩ :=
    gpio_test_reports_each_violation_once {} crossedPins (by decide +kernel)
  obtain ⟨-, -, hmissing, -⟩ := gpio_test_reports_each_violation_once {} [] .nil
  refine ⟨fun hempty => ?_, hmissing rfl, hreports (by decide +kernel)⟩
  exact absurd (hnone.1 hempty).2.1 (by decide +kernel)

end BoardBench.Evaluation.Gpio
