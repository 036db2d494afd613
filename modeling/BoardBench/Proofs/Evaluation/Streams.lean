import BoardBench.Evaluation.OfLog
import Mathlib.Data.List.Basic

/-!
# Streams — a verdict depends on two streams, not on how they are mixed

A merged log mixes what two boards report, and how it does is chance. An evaluation takes the events
of each role out of the log, and of these it looks at the payloads only, and at the times of the
tester. `Event.seen` leaves nothing else of an event, and `stream` is what is left of a log for a
role: **two logs with the same streams and as many logged errors get the same verdict, in the same
words** (`Evaluation.verdict_depends_on_streams`).

The words are meant literally. Some diagnostics carry the events that they are about, and these
differ from one log to the other, but their wording does not show it.

An event is reduced, and not just compared up to something, because then a log has one reduced form
for each role and the relation between two logs is an equation. Every selection and every channel
can be computed from it, and the proofs are rewriting: a check of the log is a check of what is seen
of the log. For the board under test the time is set to zero, which is where it is said that its
clock is of no importance.

The number of logged errors is a condition of its own. Errors may be logged by devices of no role,
which are in no stream.
-/

set_option autoImplicit false

namespace BoardBench

/-- What an evaluation sees of an event of a role: the payload, and the time if it is the
tester's. -/
def Event.seen : Role → Event → Event
  | .sut, e => { timeMs := 0, level := .inf, device := "", payload := e.payload }
  | .tester, e => { timeMs := e.timeMs, level := .inf, device := "", payload := e.payload }

namespace Event

variable (r : Role) (e : Event)

@[simp] theorem payload_seen : (e.seen r).payload = e.payload := by
  cases r <;> rfl

@[simp] theorem lastChar_seen : (e.seen r).lastChar = e.lastChar := by
  simp [lastChar]

@[simp] theorem shownLast_seen : (e.seen r).shownLast = e.shownLast := by
  simp [shownLast]

@[simp] theorem mentions_seen (part : String) : (e.seen r).mentions part = e.mentions part := by
  simp [mentions]

@[simp] theorem channel_seen (width : Nat) : (e.seen r).channel width = e.channel width := by
  simp [channel]

end Event

def stream (r : Role) (log : List Event) : List Event :=
  (log.filter (·.isFrom r)).map (Event.seen r)

def SameStreams (l m : List Event) : Prop :=
  ∀ r, stream r l = stream r m

/-! ## Selections and channels -/

/-- A selection by payload is a selection from the stream. -/
theorem selected_seen {r : Role} {p : Event → Bool} (hp : ∀ e, p (e.seen r) = p e)
    (log : List Event) : (selected r p log).map (Event.seen r) = (stream r log).filter p := by
  have hsplit : selected r p log = (log.filter (·.isFrom r)).filter p := by
    rw [selected, List.filter_filter]
    simp only [Bool.and_comm]
  rw [hsplit, stream, List.filter_map]
  exact congrArg _ (List.filter_congr fun e _ => (hp e).symm)

theorem selected_congr {r : Role} {p : Event → Bool} {l m : List Event} (h : SameStreams l m)
    (hp : ∀ e, p (e.seen r) = p e) :
    (selected r p l).map (Event.seen r) = (selected r p m).map (Event.seen r) := by
  rw [selected_seen hp, selected_seen hp, h r]

theorem length_eq_of_seen {r : Role} {xs ys : List Event}
    (h : xs.map (Event.seen r) = ys.map (Event.seen r)) : xs.length = ys.length := by
  simpa using congrArg List.length h

theorem isEmpty_eq_of_seen {r : Role} {xs ys : List Event}
    (h : xs.map (Event.seen r) = ys.map (Event.seen r)) : xs.isEmpty = ys.isEmpty := by
  simpa using congrArg List.isEmpty h

theorem onChannel_seen (width : Nat) (c : String) (r : Role) (xs : List Event) :
    onChannel width c (xs.map (Event.seen r)) = (onChannel width c xs).map (Event.seen r) := by
  rw [onChannel, List.filter_map, onChannel]
  exact congrArg _ (List.filter_congr fun e _ => by simp)

/-! ## Findings in the same words -/

def wordings (ds : List Diagnostic) : List String :=
  ds.map Diagnostic.message

theorem wordings_append (ds es : List Diagnostic) :
    wordings (ds ++ es) = wordings ds ++ wordings es :=
  List.map_append

theorem wordings_flatMap {α : Type} (f : α → List Diagnostic) (xs : List α) :
    wordings (xs.flatMap f) = xs.flatMap fun x => wordings (f x) :=
  List.map_flatMap

theorem isEmpty_wordings (ds : List Diagnostic) : (wordings ds).isEmpty = ds.isEmpty :=
  List.isEmpty_map

/-- The same violations in the same words, and the same notes. -/
structure Findings.Alike (f g : Findings) : Prop where
  diagnostics : wordings f.diagnostics = wordings g.diagnostics
  notes : f.notes = g.notes

namespace Findings.Alike

variable {f g : Findings} {ds es : List Diagnostic}

theorem refl (f : Findings) : Alike f f :=
  ⟨rfl, rfl⟩

theorem check (h : Alike f g) (hw : wordings ds = wordings es) :
    Alike (f.check ds).2 (g.check es).2 := by
  refine ⟨?_, h.notes⟩
  show wordings (f.diagnostics ++ ds) = wordings (g.diagnostics ++ es)
  rw [wordings_append, wordings_append, h.diagnostics, hw]

theorem error (h : Alike f g) (d : Diagnostic) : Alike (f.error d) (g.error d) := by
  refine ⟨?_, h.notes⟩
  show wordings (f.diagnostics ++ [d]) = wordings (g.diagnostics ++ [d])
  rw [wordings_append, wordings_append, h.diagnostics]

theorem note (h : Alike f g) (text : String) : Alike (f.note text) (g.note text) := by
  refine ⟨h.diagnostics, ?_⟩
  show f.notes ++ [text] = g.notes ++ [text]
  rw [h.notes]

end Findings.Alike

/-! ## Checks see no more than that -/

section Messages

-- `delta`, since the equations of all wordings together are slow to derive
variable (c : String) (i : Nat) (r q : Role) (x y : Event) (receiver : String)

theorem message_frame_seen : (Diagnostic.frame c i (x.seen r) (y.seen q)).message =
    (Diagnostic.frame c i x y).message := by
  delta Diagnostic.message
  simp only [Event.payload_seen, Event.shownLast_seen]

theorem message_character_seen :
    (Diagnostic.character c i (x.seen r) receiver (y.seen q)).message =
      (Diagnostic.character c i x receiver y).message := by
  delta Diagnostic.message
  simp only [Event.shownLast_seen]

theorem message_payload_seen : (Diagnostic.payload c i (x.seen r) (y.seen q)).message =
    (Diagnostic.payload c i x y).message := by
  delta Diagnostic.message
  simp only [Event.payload_seen]

end Messages

theorem spacingDiagnostics_seen (channel what : String) (bounds : Bounds) (xs : List Event) :
    spacingDiagnostics channel what bounds (xs.map (Event.seen .tester)) =
      spacingDiagnostics channel what bounds xs := by
  rw [spacingDiagnostics, ← List.map_tail, List.zip_map, List.zipIdx_map, List.filterMap_map,
    spacingDiagnostics]
  rfl

/-- A check of pairs whose words depend on what is seen says the same of what is seen. -/
theorem wordings_pairs {r q : Role} {f : (Event × Event) × Nat → Option Diagnostic}
    (hf : ∀ x y i, (f ((x.seen r, y.seen q), i)).map Diagnostic.message =
      (f ((x, y), i)).map Diagnostic.message) (xs ys : List Event) :
    wordings (((xs.map (Event.seen r)).zip (ys.map (Event.seen q))).zipIdx.filterMap f) =
      wordings ((xs.zip ys).zipIdx.filterMap f) := by
  rw [List.zip_map, List.zipIdx_map, List.filterMap_map, wordings, wordings, List.map_filterMap,
    List.map_filterMap]
  refine List.filterMap_congr fun x _ => ?_
  exact hf x.1.1 x.1.2 x.2

theorem wordings_triples {r q s : Role} {f : ((Event × Event) × Event) × Nat → List Diagnostic}
    (hf : ∀ x y z i, wordings (f (((x.seen r, y.seen q), z.seen s), i)) =
      wordings (f (((x, y), z), i))) (xs ys zs : List Event) :
    wordings ((((xs.map (Event.seen r)).zip (ys.map (Event.seen q))).zip
        (zs.map (Event.seen s))).zipIdx.flatMap f) =
      wordings (((xs.zip ys).zip zs).zipIdx.flatMap f) := by
  rw [List.zip_map, List.zip_map, List.zipIdx_map, List.flatMap_map, wordings_flatMap,
    wordings_flatMap]
  refine List.flatMap_congr fun x _ => ?_
  exact hf x.1.1.1 x.1.1.2 x.1.2 x.2

namespace Evaluation

/-! ### LIN -/

namespace Lin

theorem wordings_channel (spacing : Bounds) (c : String) (xs ys : List Event) :
    wordings (channelDiagnostics spacing c (xs.map (Event.seen .sut))
        (ys.map (Event.seen .tester))) =
      wordings (channelDiagnostics spacing c xs ys) := by
  simp only [channelDiagnostics, List.length_map]
  split
  · rw [wordings_append, wordings_append, spacingDiagnostics_seen]
    congr 1
    refine wordings_pairs (fun x y i => ?_) xs ys
    simp only [Event.lastChar_seen]
    split
    · rfl
    · exact congrArg some (message_frame_seen c i _ _ x y)
  · rfl

theorem wordings_channels (spacing : Bounds) (xs ys : List Event) :
    wordings ((channels width [xs.map (Event.seen .sut), ys.map (Event.seen .tester)]).flatMap
        fun c => channelDiagnostics spacing c (onChannel width c (xs.map (Event.seen .sut)))
          (onChannel width c (ys.map (Event.seen .tester)))) =
      wordings ((channels width [xs, ys]).flatMap fun c =>
        channelDiagnostics spacing c (onChannel width c xs) (onChannel width c ys)) := by
  have hc : channels width [xs.map (Event.seen .sut), ys.map (Event.seen .tester)] =
      channels width [xs, ys] := by
    simp [channels, Function.comp_def]
  rw [hc, wordings_flatMap, wordings_flatMap]
  refine List.flatMap_congr fun c _ => ?_
  rw [onChannel_seen, onChannel_seen, wordings_channel]

/-- The two checks as lists of violations: the second is made if the first finds nothing. -/
theorem findings_eq (spacing : Bounds) (log : List Event) : findings spacing log =
    if (missingDiagnostics (sent log) (received log)).isEmpty then
      (Findings.check ((channels width [sent log, received log]).flatMap fun c =>
        channelDiagnostics spacing c (onChannel width c (sent log))
          (onChannel width c (received log)))
        (Findings.check (missingDiagnostics (sent log) (received log)) {}).2).2
    else (Findings.check (missingDiagnostics (sent log) (received log)) {}).2 :=
  rfl

theorem findings_alike {l m : List Event} (h : SameStreams l m) (spacing : Bounds) :
    (findings spacing l).Alike (findings spacing m) := by
  have hs : (sent l).map (Event.seen .sut) = (sent m).map (Event.seen .sut) :=
    selected_congr h (by simp)
  have hr : (received l).map (Event.seen .tester) = (received m).map (Event.seen .tester) :=
    selected_congr h (by simp)
  have hmissing : missingDiagnostics (sent l) (received l) =
      missingDiagnostics (sent m) (received m) := by
    rw [missingDiagnostics, missingDiagnostics, isEmpty_eq_of_seen hs, isEmpty_eq_of_seen hr]
  rw [findings_eq, findings_eq, hmissing]
  by_cases hp : (missingDiagnostics (sent m) (received m)).isEmpty = true
  · rw [if_pos hp, if_pos hp]
    apply Findings.Alike.check (.refl _)
    rw [← wordings_channels, hs, hr, wordings_channels]
  · rw [if_neg hp, if_neg hp]
    exact .refl _

end Lin

/-! ### UART -/

namespace Uart

theorem wordings_mismatch (r : Role) (c : String) (i : Nat) (x y : Event) (receiver : String) :
    wordings (mismatch c i (x.seen .tester) receiver (y.seen r)) =
      wordings (mismatch c i x receiver y) := by
  simp only [mismatch, Event.lastChar_seen]
  split
  · rfl
  · exact congrArg (fun m => [m]) (message_character_seen c i _ _ x y receiver)

theorem wordings_channel (spacing : Option Bounds) (c : String) (xs ys zs : List Event) :
    wordings (channelDiagnostics spacing c (xs.map (Event.seen .tester))
        (ys.map (Event.seen .sut)) (zs.map (Event.seen .tester))) =
      wordings (channelDiagnostics spacing c xs ys zs) := by
  simp only [channelDiagnostics, List.length_map]
  split
  · rw [wordings_append, wordings_append]
    congr 1
    · refine wordings_triples (fun x y z i => ?_) xs ys zs
      rw [wordings_append, wordings_append, wordings_mismatch, wordings_mismatch]
    · split
      · rw [spacingDiagnostics_seen]
      · rfl
  · rfl

theorem wordings_channels (spacing : Option Bounds) (xs ys zs : List Event) :
    wordings ((channels width [xs.map (Event.seen .tester), zs.map (Event.seen .tester),
        ys.map (Event.seen .sut)]).flatMap fun c =>
          channelDiagnostics spacing c (onChannel width c (xs.map (Event.seen .tester)))
            (onChannel width c (ys.map (Event.seen .sut)))
            (onChannel width c (zs.map (Event.seen .tester)))) =
      wordings ((channels width [xs, zs, ys]).flatMap fun c =>
        channelDiagnostics spacing c (onChannel width c xs) (onChannel width c ys)
          (onChannel width c zs)) := by
  have hc : channels width [xs.map (Event.seen .tester), zs.map (Event.seen .tester),
      ys.map (Event.seen .sut)] = channels width [xs, zs, ys] := by
    simp [channels, Function.comp_def]
  rw [hc, wordings_flatMap, wordings_flatMap]
  refine List.flatMap_congr fun c _ => ?_
  rw [onChannel_seen, onChannel_seen, onChannel_seen, wordings_channel]

theorem findings_alike {l m : List Event} (h : SameStreams l m) (spacing : Option Bounds) :
    (findings spacing l).Alike (findings spacing m) := by
  have hs : (sent l).map (Event.seen .tester) = (sent m).map (Event.seen .tester) :=
    selected_congr h (by simp)
  have hr : (received l).map (Event.seen .sut) = (received m).map (Event.seen .sut) :=
    selected_congr h (by simp)
  have he : (echoed l).map (Event.seen .tester) = (echoed m).map (Event.seen .tester) :=
    selected_congr h (by simp)
  simp only [findings, isEmpty_eq_of_seen hs]
  by_cases hp : (sent m).isEmpty = true
  · rw [if_pos hp, if_pos hp]
    exact .refl _
  · rw [if_neg hp, if_neg hp]
    apply Findings.Alike.check (.refl _)
    rw [← wordings_channels, hs, hr, he, wordings_channels]

end Uart

/-! ### GPIO -/

namespace Gpio

theorem pin_seen (r : Role) (e : Event) : pin (e.seen r) = pin e :=
  Event.channel_seen r e pinWidth

theorem orderDiagnostics_seen (xs ys zs : List Event) :
    wordings (orderDiagnostics (xs.map (Event.seen .sut)) (ys.map (Event.seen .tester))
        (zs.map (Event.seen .tester))) =
      wordings (orderDiagnostics xs ys zs) := by
  refine wordings_triples (fun x y z i => ?_) xs ys zs
  simp only [pinDiagnostics, pin_seen]

theorem findings_alike {l m : List Event} (h : SameStreams l m) (spacing : Bounds) :
    (findings spacing l).Alike (findings spacing m) := by
  have ht : (toggles l).map (Event.seen .sut) = (toggles m).map (Event.seen .sut) :=
    selected_congr h (by simp)
  have hu : (rising l).map (Event.seen .tester) = (rising m).map (Event.seen .tester) :=
    selected_congr h (by simp)
  have hd : (falling l).map (Event.seen .tester) = (falling m).map (Event.seen .tester) :=
    selected_congr h (by simp)
  have hspacing : spacingDiagnostics "Tester" "rising edge" spacing (rising l) =
      spacingDiagnostics "Tester" "rising edge" spacing (rising m) := by
    rw [← spacingDiagnostics_seen, hu, spacingDiagnostics_seen]
  have hwords : wordings (orderDiagnostics (toggles l) (rising l) (falling l)) =
      wordings (orderDiagnostics (toggles m) (rising m) (falling m)) := by
    rw [← orderDiagnostics_seen, ht, hu, hd, orderDiagnostics_seen]
  have hordered : (orderDiagnostics (toggles l) (rising l) (falling l)).isEmpty =
      (orderDiagnostics (toggles m) (rising m) (falling m)).isEmpty := by
    rw [← isEmpty_wordings, hwords, isEmpty_wordings]
  have htallies : tallies l = tallies m := by
    rw [tallies, tallies, length_eq_of_seen ht, length_eq_of_seen hu, length_eq_of_seen hd]
  -- the order check is all that is not literally the same for both logs
  have horder : ∀ (agree : Bool) (f : Findings),
      (checkOrder l agree f).Alike (checkOrder m agree f) := by
    intro agree f
    unfold checkOrder
    split
    · show (Findings.note (if (orderDiagnostics (toggles l) (rising l) (falling l)).isEmpty then
          "Port order is OK" else "Port order has ERRORs") _).Alike
        (Findings.note (if (orderDiagnostics (toggles m) (rising m) (falling m)).isEmpty then
          "Port order is OK" else "Port order has ERRORs") _)
      rw [hordered]
      exact (Findings.Alike.check (.refl f) hwords).note _
    · exact .refl _
  simp only [findings, isEmpty_eq_of_seen ht, length_eq_of_seen hu, length_eq_of_seen hd,
    Findings.checkCounts, Findings.checkSpacing, htallies, hspacing]
  by_cases hp : (toggles m).isEmpty = true
  · rw [if_pos hp, if_pos hp]
    exact .refl _
  · rw [if_neg hp, if_neg hp]
    exact horder _ _

end Gpio

/-! ### CAN -/

namespace Can

theorem wordings_channel (spacing : Bounds) (c : String) (xs ys : List Event) :
    wordings (channelDiagnostics spacing c (xs.map (Event.seen .sut))
        (ys.map (Event.seen .tester))) =
      wordings (channelDiagnostics spacing c xs ys) := by
  simp only [channelDiagnostics, List.length_map, periodDiagnostics]
  split
  · rw [wordings_append, wordings_append, spacingDiagnostics_seen]
    congr 1
    refine wordings_pairs (fun x y i => ?_) xs ys
    simp only [Event.payload_seen]
    split
    · rfl
    · exact congrArg some (message_payload_seen c i _ _ x y)
  · rfl

theorem wordings_channels (spacing : Bounds) (xs ys : List Event) :
    wordings ((channels width [ys.map (Event.seen .tester), xs.map (Event.seen .sut)]).flatMap
        fun c => channelDiagnostics spacing c (onChannel width c (xs.map (Event.seen .sut)))
          (onChannel width c (ys.map (Event.seen .tester)))) =
      wordings ((channels width [ys, xs]).flatMap fun c =>
        channelDiagnostics spacing c (onChannel width c xs) (onChannel width c ys)) := by
  have hc : channels width [ys.map (Event.seen .tester), xs.map (Event.seen .sut)] =
      channels width [ys, xs] := by
    simp [channels, Function.comp_def]
  rw [hc, wordings_flatMap, wordings_flatMap]
  refine List.flatMap_congr fun c _ => ?_
  rw [onChannel_seen, onChannel_seen, wordings_channel]

theorem findings_alike {l m : List Event} (h : SameStreams l m) (spacing : Bounds) :
    (findings spacing l).Alike (findings spacing m) := by
  have hs : (sent l).map (Event.seen .sut) = (sent m).map (Event.seen .sut) :=
    selected_congr h (by simp)
  have hr : (received l).map (Event.seen .tester) = (received m).map (Event.seen .tester) :=
    selected_congr h (by simp)
  apply Findings.Alike.check (.refl _)
  rw [← wordings_channels, hs, hr, wordings_channels]

end Can

/-! ## The verdict -/

theorem findingsOf_alike {l m : List Event} (h : SameStreams l m) (timing : TimingSettings)
    (s : Subsystem) : (findingsOf timing s l).Alike (findingsOf timing s m) := by
  cases s with
  | gpio => exact Gpio.findings_alike h timing.gpio
  | uart => exact Uart.findings_alike h timing.uart
  | can => exact Can.findings_alike h timing.can
  | lin => exact Lin.findings_alike h timing.lin

theorem sameStreams_of_maps {l m : List Event}
    (hsut : (l.filter (·.isFrom .sut)).map Event.payload =
      (m.filter (·.isFrom .sut)).map Event.payload)
    (htester : (l.filter (·.isFrom .tester)).map (fun e => (e.timeMs, e.payload)) =
      (m.filter (·.isFrom .tester)).map (fun e => (e.timeMs, e.payload))) : SameStreams l m := by
  intro r
  cases r with
  | sut =>
    have h := congrArg (List.map fun p : String => (⟨0, .inf, "", p⟩ : Event)) hsut
    rw [List.map_map, List.map_map] at h
    exact h
  | tester =>
    have h := congrArg (List.map fun x : UInt64 × String => (⟨x.1, .inf, "", x.2⟩ : Event)) htester
    rw [List.map_map, List.map_map] at h
    exact h

/-- **How the boards' reports are mixed does not show in the verdict.** Two logs in which the board
under test reports the same, the tester reports the same at the same times, and as many errors are
logged: every evaluation finds the same, in the same words and the same order. -/
theorem verdict_depends_on_streams (timing : TimingSettings) (s : Subsystem) (l m : List Event)
    (hsut : (l.filter (·.isFrom .sut)).map Event.payload =
      (m.filter (·.isFrom .sut)).map Event.payload)
    (htester : (l.filter (·.isFrom .tester)).map (fun e => (e.timeMs, e.payload)) =
      (m.filter (·.isFrom .tester)).map (fun e => (e.timeMs, e.payload)))
    (herrors : (l.filter Event.isError).length = (m.filter Event.isError).length) :
    (ofLog timing s l).diagnostics.map Diagnostic.message =
        (ofLog timing s m).diagnostics.map Diagnostic.message ∧
      (ofLog timing s l).notes = (ofLog timing s m).notes ∧
      (ofLog timing s l).hasErrors = (ofLog timing s m).hasErrors ∧
      (ofLog timing s l).summary = (ofLog timing s m).summary := by
  have halike := findingsOf_alike (sameStreams_of_maps hsut htester) timing s
  have hwords : wordings (ofLog timing s l).diagnostics = wordings (ofLog timing s m).diagnostics :=
    halike.diagnostics
  have hlength : (ofLog timing s l).diagnostics.length = (ofLog timing s m).diagnostics.length := by
    simpa [wordings] using congrArg List.length hwords
  -- notes, verdict and summary look at the diagnostics only through their number
  have hclean :
      (ofLog timing s l).diagnostics.isEmpty = (ofLog timing s m).diagnostics.isEmpty := by
    rw [← isEmpty_wordings, hwords, isEmpty_wordings]
  have hserial : (ofLog timing s l).serialErrors.length = (ofLog timing s m).serialErrors.length :=
    herrors
  have hquiet :
      (ofLog timing s l).serialErrors.isEmpty = (ofLog timing s m).serialErrors.isEmpty := by
    rw [Bool.eq_iff_iff, List.isEmpty_iff_length_eq_zero, List.isEmpty_iff_length_eq_zero, hserial]
  have hnotes : (ofLog timing s l).notes = (ofLog timing s m).notes := by
    have hfound : (ofLog timing s l).findings.notes = (ofLog timing s m).findings.notes :=
      halike.notes
    rw [notes, notes, closingNotes, closingNotes, hfound, hlength, hclean, hserial, hquiet]
  have hverdict : (ofLog timing s l).hasErrors = (ofLog timing s m).hasErrors := by
    rw [hasErrors, hasErrors, hclean, hquiet]
  refine ⟨hwords, hnotes, hverdict, ?_⟩
  have hsubsystem : (ofLog timing s l).subsystem = (ofLog timing s m).subsystem := rfl
  rw [summary, summary, hsubsystem, hverdict, hnotes]

/-- A pin that went on but was not seen to fall, as a log has it. -/
def pinLog : List Event :=
  [⟨5, .inf, "sut", "gpio@48000800 pin 1 on"⟩, ⟨7, .inf, "tester", "gpio@48000800 pin 1 rising"⟩,
    ⟨9, .err, "tester", "timeout"⟩]

/-- The same reports in another order, at other times of the board under test, at another level and
under tags in capitals, with a third device that has something to say. -/
def mixedPinLog : List Event :=
  [⟨7, .dbg, "TESTER", "gpio@48000800 pin 1 rising"⟩, ⟨1, .wrn, "probe", "gpio@48000800 pin 1 on"⟩,
    ⟨6, .wrn, "SUT", "gpio@48000800 pin 1 on"⟩, ⟨9, .err, "Tester", "timeout"⟩]

theorem pinLog_verdict_is_that_of_mixedPinLog :
    pinLog ≠ mixedPinLog ∧
      (ofLog {} .gpio pinLog).diagnostics.map Diagnostic.message =
        (ofLog {} .gpio mixedPinLog).diagnostics.map Diagnostic.message ∧
      (ofLog {} .gpio pinLog).notes = (ofLog {} .gpio mixedPinLog).notes ∧
      (ofLog {} .gpio pinLog).hasErrors = (ofLog {} .gpio mixedPinLog).hasErrors ∧
      (ofLog {} .gpio pinLog).summary = (ofLog {} .gpio mixedPinLog).summary :=
  ⟨by decide, verdict_depends_on_streams {} .gpio pinLog mixedPinLog (by decide +kernel)
    (by decide +kernel) (by decide +kernel)⟩

end Evaluation

end BoardBench
