import BoardBench.BoardTest
import BoardBench.Proofs.Evaluation.Agreement
import BoardBench.Proofs.Interleaving
import Mathlib.Data.List.Basic

/-!
# Traffic — the verdict on what two boards report

`Traffic` is what the boards of a bench report in all tests, track by track. The log of a test
mixes what the two boards stream in it, and an evaluation takes it apart again: **each of its
selections is one of the tracks** (`Traffic.selected_log`), however the log is mixed.

So the verdict can be told from the traffic. A subsystem is `Fine` if its tracks match, and it is
then found to be so (`Traffic.Fine.diagnostics`). One sighting that tells something else, or is
lost, anywhere in one of its tracks, is found (`Traffic.Corrupts.diagnostics`), and has no
influence on the other subsystems (`Traffic.Corrupts.fine_of_ne`).

`Traffic` carries the proof that each sighting has a datum that the subsystem can report. Without it
a payload could be anything, and an evaluation could not tell where the datum ends. It is a field
and not a hypothesis, so that what is built from traffic, streams and logs and whole tests, does not
have to pass it on.

`Fine` asks that any two tracks of a subsystem tell the same, although an evaluation compares only
some pairs of them: for two tracks that is the same, and for three it makes the condition symmetric,
so that one argument serves whichever track is corrupted. The corruption takes and gives one
sighting or none (`Option`), which has replacement, loss and invention in one case.
-/

set_option autoImplicit false

namespace BoardBench

/-- What two boards report, track by track. -/
structure Traffic where
  seen : Track → List Sighting
  carried : ∀ k, ∀ x ∈ seen k, k.subsystem.Carries x.datum

/-- The tracks of a board in a test: one, or two that it mixes. -/
def Subsystem.tracks : Subsystem → Role → Track × Option Track
  | .lin, .sut => (.linSent, none)
  | .lin, .tester => (.linReceived, none)
  | .uart, .sut => (.uartReceived, none)
  | .uart, .tester => (.uartSent, some .uartEchoed)
  | .gpio, .sut => (.pinOn, none)
  | .gpio, .tester => (.pinRising, some .pinFalling)
  | .can, .sut => (.canSent, none)
  | .can, .tester => (.canReceived, none)

/-- The track whose timing is checked. -/
def Subsystem.clock : Subsystem → Track
  | .lin => .linReceived
  | .uart => .uartSent
  | .gpio => .pinRising
  | .can => .canReceived

theorem Subsystem.subsystem_clock (s : Subsystem) : s.clock.subsystem = s := by
  cases s <;> rfl

theorem Track.eq_tracks (k : Track) : k = (k.subsystem.tracks k.role).1 ∨
    (k.subsystem.tracks k.role).2 = some k := by
  cases k <;> decide

theorem Subsystem.of_tracks (s : Subsystem) (r : Role) :
    ((s.tracks r).1.subsystem = s ∧ (s.tracks r).1.role = r) ∧
      ∀ k, (s.tracks r).2 = some k → k.subsystem = s ∧ k.role = r ∧ (s.tracks r).1 ≠ k := by
  cases s <;> cases r <;> refine ⟨⟨rfl, rfl⟩, ?_⟩ <;> rintro k hk <;> cases hk <;> decide

/-- What a board streams in a phase: the start message, some events, the stop message. -/
def Bracket.Frames (b : Bracket) (r : Role) (es stream : List Event) : Prop :=
  ∃ t₁ t₂, stream = ⟨t₁, .inf, r.tag, b.start⟩ :: es ++ [⟨t₂, .inf, r.tag, b.stop⟩]

namespace Traffic

variable {t t₀ : Traffic} {s : Subsystem} {r : Role} {k : Track} {timing : TimingSettings}

/-! ## Streams and logs -/

def events (t : Traffic) (k : Track) : List Event :=
  (t.seen k).map k.event

/-- What a board reports in a test, its tracks mixed in one way or another. -/
def Reports (t : Traffic) (s : Subsystem) (r : Role) (es : List Event) : Prop :=
  Interleaving (t.events (s.tracks r).1) ((s.tracks r).2.elim [] t.events) es

/-- What a board streams in the phase of a test. -/
def Streams (t : Traffic) (s : Subsystem) (r : Role) (stream : List Event) : Prop :=
  ∃ es, t.Reports s r es ∧ s.bracket.Frames r es stream

/-- The log of a test: the streams of both boards, mixed in one way or another. -/
def Logs (t : Traffic) (s : Subsystem) (log : List Event) : Prop :=
  ∃ es fs, t.Streams s .sut es ∧ t.Streams s .tester fs ∧ Interleaving es fs log

theorem mem_of_reports {es : List Event} {e : Event} (h : t.Reports s r es) (he : e ∈ es) :
    ∃ k x, k.subsystem = s ∧ k.role = r ∧ x ∈ t.seen k ∧ e = k.event x := by
  obtain ⟨⟨hs, hr⟩, hother⟩ := s.of_tracks r
  rcases h.mem_iff.1 he with hmem | hmem
  · obtain ⟨x, hx, rfl⟩ := List.mem_map.1 hmem
    exact ⟨_, x, hs, hr, hx, rfl⟩
  · cases hk : (s.tracks r).2 with
    | none =>
      rw [hk] at hmem
      cases hmem
    | some k =>
      rw [hk] at hmem
      obtain ⟨x, hx, rfl⟩ := List.mem_map.1 hmem
      obtain ⟨hs', hr', -⟩ := hother k hk
      exact ⟨k, x, hs', hr', hx, rfl⟩

/-- What an evaluation wants is one track of those that a board mixes. -/
theorem filter_reports {es : List Event} (h : t.Reports k.subsystem k.role es) :
    es.filter k.wants = t.events k := by
  have hall : (t.events k).filter k.wants = t.events k := by
    rw [List.filter_eq_self]
    intro e he
    obtain ⟨x, hx, rfl⟩ := List.mem_map.1 he
    rw [Track.wants_event (t.carried k x hx) rfl rfl, decide_eq_true rfl]
  have hnone : ∀ j : Track, j.subsystem = k.subsystem → j.role = k.role → j ≠ k →
      ∀ e ∈ t.events j, k.wants e = false := by
    intro j hs hr hne e he
    obtain ⟨x, hx, rfl⟩ := List.mem_map.1 he
    rw [Track.wants_event (t.carried j x hx) hs hr, decide_eq_false hne]
  obtain ⟨⟨hs, hr⟩, hother⟩ := k.subsystem.of_tracks k.role
  rcases k.eq_tracks with hk | hk
  · have hrest : ∀ e ∈ (k.subsystem.tracks k.role).2.elim [] t.events, k.wants e = false := by
      cases hj : (k.subsystem.tracks k.role).2 with
      | none => simp
      | some j =>
        obtain ⟨hs', hr', hne⟩ := hother j hj
        rw [← hk] at hne
        exact hnone j hs' hr' (Ne.symm hne)
    rw [h.filter_left hrest, ← hk, hall]
  · rw [Reports, hk] at h
    obtain ⟨-, -, hne⟩ := hother k hk
    rw [h.filter_right (hnone _ hs hr hne)]
    exact hall

theorem isFrom_of_streams {stream : List Event} {e : Event} (h : t.Streams s r stream)
    (he : e ∈ stream) (r' : Role) : e.isFrom r' = decide (r = r') := by
  obtain ⟨es, hes, t₁, t₂, rfl⟩ := h
  simp only [List.mem_append, List.mem_cons, List.not_mem_nil, or_false] at he
  rcases he with (rfl | he) | rfl
  · exact Event.isFrom_tag _ _ _ _
  · obtain ⟨k, x, -, rfl, -, rfl⟩ := mem_of_reports hes he
    exact Event.isFrom_tag _ _ _ _
  · exact Event.isFrom_tag _ _ _ _

theorem not_isError_of_streams {stream : List Event} {e : Event} (h : t.Streams s r stream)
    (he : e ∈ stream) : e.isError = false := by
  obtain ⟨es, hes, t₁, t₂, rfl⟩ := h
  simp only [List.mem_append, List.mem_cons, List.not_mem_nil, or_false] at he
  rcases he with (rfl | he) | rfl
  · rfl
  · obtain ⟨k, x, -, -, -, rfl⟩ := mem_of_reports hes he
    rfl
  · rfl

/-- The start and the stop message are in nobody's way. -/
theorem selected_of_streams {stream : List Event} (h : t.Streams k.subsystem k.role stream) :
    selected k.role k.wants stream = t.events k := by
  have hplain : ∀ s : Subsystem, '@' ∉ s.start.toList ∧ '@' ∉ s.stop.toList := by
    intro s
    cases s <;> decide
  have hfrom : stream.filter (fun e => e.isFrom k.role && k.wants e) = stream.filter k.wants := by
    refine List.filter_congr fun e he => ?_
    rw [isFrom_of_streams h he, decide_eq_true rfl, Bool.true_and]
  obtain ⟨es, hes, t₁, t₂, rfl⟩ := h
  have hstart : k.wants ⟨t₁, .inf, k.role.tag, k.subsystem.bracket.start⟩ = false :=
    Track.not_wants_of_no_address k (hplain k.subsystem).1
  have hstop : k.wants ⟨t₂, .inf, k.role.tag, k.subsystem.bracket.stop⟩ = false :=
    Track.not_wants_of_no_address k (hplain k.subsystem).2
  rw [selected, hfrom, List.filter_append, List.filter_cons_of_neg (by simp [hstart]),
    List.filter_cons_of_neg (by simp [hstop]), filter_reports hes, List.filter_nil, List.append_nil]

/-- **Each selection of an evaluation is one track**, however the log is mixed. -/
theorem selected_log {log : List Event} (h : t.Logs k.subsystem log) :
    selected k.role k.wants log = t.events k := by
  obtain ⟨es, fs, hes, hfs, hmix⟩ := h
  have hother : ∀ {r : Role} {stream : List Event}, t.Streams k.subsystem r stream → r ≠ k.role →
      ∀ e ∈ stream, (e.isFrom k.role && k.wants e) = false := by
    intro r stream hstream hr e he
    rw [isFrom_of_streams hstream he, decide_eq_false hr, Bool.false_and]
  rw [selected]
  cases hr : k.role with
  | sut =>
    rw [hmix.filter_left (by rw [← hr]; exact hother hfs (by rw [hr]; decide)), ← hr]
    exact selected_of_streams (hr ▸ hes)
  | tester =>
    rw [hmix.filter_right (by rw [← hr]; exact hother hes (by rw [hr]; decide)), ← hr]
    exact selected_of_streams (hr ▸ hfs)

theorem serialErrors_eq_nil {log : List Event} (h : t.Logs s log) (e : Evaluation)
    (he : e.log = log) : e.serialErrors = [] := by
  obtain ⟨es, fs, hes, hfs, hmix⟩ := h
  rw [Evaluation.serialErrors, he, List.filter_eq_nil_iff]
  intro x hx
  rcases hmix.mem_iff.1 hx with hx | hx
  · simp [not_isError_of_streams hes hx]
  · simp [not_isError_of_streams hfs hx]

/-! ## What an evaluation is told -/

/-- What an evaluation is told of a track. -/
def told (t : Traffic) (k : Track) : List (Address × List Char) :=
  (t.seen k).map (Sighting.told k.subsystem)

/-- The sightings of a track at one peripheral. -/
def lane (t : Traffic) (k : Track) (u : Address) : List Sighting :=
  (t.seen k).filter (·.unit = u)

/-- The sequences of sightings that are to be evenly spaced: one for each peripheral, but all pins
together. -/
def Series (t : Traffic) (s : Subsystem) (xs : List Sighting) : Prop :=
  if s = .gpio then xs = t.seen s.clock else ∃ u, xs = t.lane s.clock u

/-- **A subsystem is fine**: its tracks match in what they tell, there is something on each of
them, or on CAN at least two frames at each peripheral at which there are any, and everything is
the right time apart whose timing is checked. -/
structure Fine (t : Traffic) (timing : TimingSettings) (s : Subsystem) : Prop where
  matching : ∀ j k, j.subsystem = s → k.subsystem = s → t.told j = t.told k
  present : s ≠ .can → ∀ k, k.subsystem = s → t.seen k ≠ []
  repeated : s = .can → ∀ x ∈ t.seen s.clock, 2 ≤ (t.lane s.clock x.unit).length
  spaced : ∀ b, timing.bounds? s = some b → ∀ xs, t.Series s xs →
    (xs.map s.clock.event).IsChain b.Apart

/-- One sighting of a track is replaced by one that tells something else, or is lost, or is there
though nothing was sighted. Nothing else is changed. -/
structure Corrupts (t₀ : Traffic) (k : Track) (t : Traffic) : Prop where
  others : ∀ j, j ≠ k → t.seen j = t₀.seen j
  altered : ∃ (front back : List Sighting) (x y : Option Sighting),
    t₀.seen k = front ++ x.toList ++ back ∧ t.seen k = front ++ y.toList ++ back ∧
      x.map (Sighting.told k.subsystem) ≠ y.map (Sighting.told k.subsystem)

theorem marks_events (t : Traffic) (k : Track) :
    (t.events k).map (Event.mark k.subsystem) = (t.told k).map k.subsystem.shown := by
  rw [events, told, List.map_map, List.map_map]
  exact List.map_congr_left fun x hx => Track.mark_event (t.carried k x hx)

/-- On a channel there is nothing of a track, or what was seen at one peripheral. -/
theorem onChannel_events (hk : k.subsystem ≠ .gpio) (c : String) :
    onChannel k.subsystem.width c (t.events k) = [] ∨
      ∃ x ∈ t.seen k, onChannel k.subsystem.width c (t.events k) =
        (t.lane k x.unit).map k.event := by
  have hname : ∀ x, (k.event x).channel k.subsystem.width = k.subsystem.marker ++ x.unit.text :=
    fun x => Track.channel_eq_name hk
  have hmap : onChannel k.subsystem.width c (t.events k) =
      ((t.seen k).filter fun x => k.subsystem.marker ++ x.unit.text == c).map k.event := by
    rw [onChannel, events, List.filter_map]
    refine congrArg (List.map k.event) (List.filter_congr fun x _ => ?_)
    simp only [Function.comp_apply, hname]
  rw [hmap]
  cases hfilter : (t.seen k).filter fun x => k.subsystem.marker ++ x.unit.text == c with
  | nil => exact Or.inl rfl
  | cons x rest =>
    have hx : x ∈ (t.seen k).filter fun x => k.subsystem.marker ++ x.unit.text == c := by
      rw [hfilter]
      exact List.mem_cons_self
    obtain ⟨hmem, hc⟩ := List.mem_filter.1 hx
    refine Or.inr ⟨x, hmem, ?_⟩
    rw [← hfilter, lane]
    refine congrArg (List.map k.event) (List.filter_congr fun y _ => ?_)
    -- the name of a peripheral tells its address
    rw [← beq_iff_eq.1 hc, Bool.eq_iff_iff, beq_iff_eq, decide_eq_true_iff]
    constructor
    · intro heq
      have hlist := congrArg String.toList heq
      rw [String.toList_append, String.toList_append] at hlist
      exact Address.ext_text (List.append_cancel_left hlist)
    · intro heq
      rw [heq]

/-! ### When nothing is found

The conditions on the log, as conditions on the tracks in it. -/

section Accepted

variable {log : List Event}

theorem lin_eq_nil_iff (hlog : t.Logs .lin log) :
    (Evaluation.findingsOf timing .lin log).diagnostics = [] ↔
      t.events .linSent ≠ [] ∧ t.events .linReceived ≠ [] ∧
        ∀ c, Evaluation.Lin.Accepts timing.lin
          (onChannel Subsystem.lin.width c (t.events .linSent))
          (onChannel Subsystem.lin.width c (t.events .linReceived)) := by
  have hsent : Evaluation.Lin.sent log = t.events .linSent :=
    selected_log (k := .linSent) hlog
  have hreceived : Evaluation.Lin.received log = t.events .linReceived :=
    selected_log (k := .linReceived) hlog
  rw [← hsent, ← hreceived]
  exact Evaluation.Lin.findings_eq_nil_iff

theorem uart_eq_nil_iff (hlog : t.Logs .uart log) :
    (Evaluation.findingsOf timing .uart log).diagnostics = [] ↔
      t.events .uartSent ≠ [] ∧
        ∀ c, Evaluation.Uart.Accepts timing.uart
          (onChannel Subsystem.uart.width c (t.events .uartSent))
          (onChannel Subsystem.uart.width c (t.events .uartReceived))
          (onChannel Subsystem.uart.width c (t.events .uartEchoed)) := by
  have hsent : Evaluation.Uart.sent log = t.events .uartSent :=
    selected_log (k := .uartSent) hlog
  have hreceived : Evaluation.Uart.received log = t.events .uartReceived :=
    selected_log (k := .uartReceived) hlog
  have hechoed : Evaluation.Uart.echoed log = t.events .uartEchoed :=
    selected_log (k := .uartEchoed) hlog
  rw [← hsent, ← hreceived, ← hechoed]
  exact Evaluation.Uart.findings_eq_nil_iff

theorem gpio_eq_nil_iff (hlog : t.Logs .gpio log) :
    (Evaluation.findingsOf timing .gpio log).diagnostics = [] ↔
      t.events .pinOn ≠ [] ∧ Evaluation.Gpio.Accepts timing.gpio (t.events .pinOn)
        (t.events .pinRising) (t.events .pinFalling) := by
  have hon : Evaluation.Gpio.toggles log = t.events .pinOn :=
    selected_log (k := .pinOn) hlog
  have hrising : Evaluation.Gpio.rising log = t.events .pinRising :=
    selected_log (k := .pinRising) hlog
  have hfalling : Evaluation.Gpio.falling log = t.events .pinFalling :=
    selected_log (k := .pinFalling) hlog
  rw [← hon, ← hrising, ← hfalling]
  exact Evaluation.Gpio.findings_eq_nil_iff

theorem can_eq_nil_iff (hlog : t.Logs .can log) :
    (Evaluation.findingsOf timing .can log).diagnostics = [] ↔
      ∀ c, Evaluation.Can.Accepts timing.can
        (onChannel Subsystem.can.width c (t.events .canSent))
        (onChannel Subsystem.can.width c (t.events .canReceived)) := by
  have hsent : Evaluation.Can.sent log = t.events .canSent :=
    selected_log (k := .canSent) hlog
  have hreceived : Evaluation.Can.received log = t.events .canReceived :=
    selected_log (k := .canReceived) hlog
  rw [← hsent, ← hreceived]
  exact Evaluation.Can.findings_eq_nil_iff

end Accepted

/-! ## What is fine is found to be so -/

namespace Fine

theorem marks (h : t.Fine timing s) {j k : Track} (hj : j.subsystem = s) (hk : k.subsystem = s) :
    (t.events j).map (Event.mark s) = (t.events k).map (Event.mark s) := by
  have hmj := t.marks_events j
  have hmk := t.marks_events k
  rw [hj] at hmj
  rw [hk] at hmk
  rw [hmj, hmk, h.matching j k hj hk]

theorem compared (h : t.Fine timing s) {j k : Track} (hj : j.subsystem = s) (hk : k.subsystem = s)
    (c : String) : (onChannel s.width c (t.events j)).map s.compared =
      (onChannel s.width c (t.events k)).map s.compared := by
  rw [compared_onChannel, compared_onChannel, h.marks hj hk]

theorem events_ne (h : t.Fine timing s) (hs : s ≠ .can) (hk : k.subsystem = s) :
    t.events k ≠ [] := by
  intro hnil
  exact h.present hs k hk (List.map_eq_nil_iff.1 hnil)

theorem isChain (h : t.Fine timing s) (hs : s ≠ .gpio) {b : Bounds}
    (hb : timing.bounds? s = some b) (c : String) :
    (onChannel s.width c (t.events s.clock)).IsChain b.Apart := by
  have hclock := s.subsystem_clock
  have hcases := onChannel_events (t := t) (k := s.clock) (by rw [hclock]; exact hs) c
  rw [hclock] at hcases
  rcases hcases with hnil | ⟨x, -, heq⟩
  · rw [hnil]
    exact .nil
  · rw [heq]
    apply h.spaced b hb
    rw [Series, if_neg hs]
    exact ⟨x.unit, rfl⟩

end Fine

/-- **A fine subsystem is found to be fine.** -/
theorem Fine.diagnostics (h : t.Fine timing s) {log : List Event} (hlog : t.Logs s log) :
    (Evaluation.findingsOf timing s log).diagnostics = [] := by
  cases s with
  | lin =>
    refine (lin_eq_nil_iff hlog).2 ⟨h.events_ne (by decide) rfl, h.events_ne (by decide) rfl, ?_⟩
    intro c
    exact ⟨map_lastChar_eq_iff.2 (h.compared rfl rfl c), h.isChain (by decide) rfl c⟩
  | uart =>
    refine (uart_eq_nil_iff hlog).2 ⟨h.events_ne (by decide) rfl, fun c => ⟨?_, ?_, fun b hb => ?_⟩⟩
    · exact map_lastChar_eq_iff.2 (h.compared rfl rfl c)
    · exact map_lastChar_eq_iff.2 (h.compared rfl rfl c)
    · exact h.isChain (by decide) hb c
  | gpio =>
    refine (gpio_eq_nil_iff hlog).2 ⟨h.events_ne (by decide) rfl, ?_, ?_, ?_⟩
    · exact map_pin_eq_iff.2 (h.marks rfl rfl)
    · exact map_pin_eq_iff.2 (h.marks rfl rfl)
    · -- the one series of all pins
      apply h.spaced timing.gpio rfl
      rw [Series, if_pos rfl]
      rfl
  | can =>
    refine (can_eq_nil_iff hlog).2 fun c => ?_
    refine ⟨h.compared (j := .canSent) (k := .canReceived) rfl rfl c, ?_,
      h.isChain (by decide) rfl c⟩
    rcases onChannel_events (t := t) (k := .canReceived) (by decide) c with hnil | ⟨x, hx, heq⟩
    · exact Or.inl hnil
    · apply Or.inr
      show 2 ≤ (onChannel Track.canReceived.subsystem.width c (t.events .canReceived)).length
      rw [heq, List.length_map]
      exact h.repeated rfl x hx

/-! ## What is corrupted is found to be so -/

/-- Where nothing is found, all tracks agree on all channels in what is compared. -/
theorem compared_of_diagnostics {log : List Event} (hlog : t.Logs s log)
    (hnil : (Evaluation.findingsOf timing s log).diagnostics = []) {j k : Track}
    (hj : j.subsystem = s) (hk : k.subsystem = s) (c : String) :
    (onChannel s.width c (t.events j)).map s.compared =
      (onChannel s.width c (t.events k)).map s.compared := by
  have hagree := Track.compared_reportsOn hnil hj hk c
  rwa [Track.reportsOn, Track.reports, selected_log (hj.symm ▸ hlog), hj, Track.reportsOn,
    Track.reports, selected_log (hk.symm ▸ hlog), hk] at hagree

/-- **One corruption is found**, wherever it is. -/
theorem Corrupts.diagnostics (h : t₀.Corrupts k t) (h₀ : t₀.Fine timing k.subsystem)
    {log : List Event} (hlog : t.Logs k.subsystem log) :
    (Evaluation.findingsOf timing k.subsystem log).diagnostics ≠ [] := by
  intro hnil
  obtain ⟨front, back, x, y, hx, hy, hne⟩ := h.altered
  obtain ⟨j, hj, hr⟩ := k.exists_counterpart
  have hjk : j ≠ k := fun heq => hr (congrArg Track.role heq)
  have hmarks : (t.events j).map (Event.mark k.subsystem) = (t₀.told k).map k.subsystem.shown := by
    have hmj := t.marks_events j
    rw [hj] at hmj
    rw [hmj, ← h₀.matching j k hj rfl, told, told, h.others j hjk]
  -- the track that was left alone shows what the corrupted one should show
  have hsame := compared_of_diagnostics hlog hnil hj rfl
  simp only [compared_onChannel, hmarks, marks_events, told, hx, hy, List.map_append,
    ← Option.toList_map] at hsame
  refine hne (Option.map_injective (fun _ _ => k.subsystem.shown_injective) ?_)
  exact eq_of_filter_eq hsame

/-- … and the other subsystems are as fine as they were. -/
theorem Corrupts.fine_of_ne (h : t₀.Corrupts k t) (h₀ : t₀.Fine timing s) (hs : s ≠ k.subsystem) :
    t.Fine timing s := by
  have hseen : ∀ j : Track, j.subsystem = s → t.seen j = t₀.seen j := by
    rintro j rfl
    apply h.others j
    rintro rfl
    exact hs rfl
  have hclock : t.seen s.clock = t₀.seen s.clock := hseen _ s.subsystem_clock
  have hlane : ∀ u, t.lane s.clock u = t₀.lane s.clock u := by
    intro u
    rw [lane, lane, hclock]
  refine ⟨fun i j hi hj => ?_, fun hcan j hj => ?_, fun hcan x hx => ?_, fun b hb xs hxs => ?_⟩
  · rw [told, told, hseen i hi, hseen j hj]
    exact h₀.matching i j hi hj
  · rw [hseen j hj]
    exact h₀.present hcan j hj
  · rw [hlane]
    exact h₀.repeated hcan x (hclock ▸ hx)
  · apply h₀.spaced b hb xs
    rw [Series, ← hclock]
    simp only [← hlane]
    exact hxs

end Traffic

end BoardBench
