import BoardBench.Proofs.Evaluation.Verdict
import BoardBench.Proofs.Event.Track

/-!
# Agreement — where nothing is found, the tracks of a test agree

What a log holds of a track are its `reports` there. Each subsystem compares the tracks of its test
in its own way, but what comes out is the same for all four: **if nothing is found, then on every
channel any two tracks of the test show the same sequence of what is compared**
(`compared_reportsOn`). In particular they are of one length.

That is why no report can be lost, and none be made up. One report more or less changes the number
on some track and some channel, and there is always a track that it does not change: one of the
other board, since no event comes from both.

The argument is about numbers only, and needs nothing of the order or of the payloads: if two tracks
agree in the full log, and again in the one without the report, then one track has lost an entry on
a channel and the other has not. It is put in this way, by contradiction from two logs in which
nothing is found, because this covers every subsystem and both the loss and the surplus, whatever
checks come after the numbers and whether they are reached.

An event may be taken for a report of two tracks of the *same* board, as the evaluations search the
payload for words. Of two boards it cannot, as they have different roles, and that is enough.
-/

set_option autoImplicit false

namespace BoardBench

/-- What is compared on a channel is there in the marks. -/
theorem compared_onChannel (s : Subsystem) (c : String) (es : List Event) :
    (onChannel s.width c es).map s.compared =
      ((es.map (Event.mark s)).filter (·.1 == c)).map (·.2) := by
  rw [List.filter_map, List.map_map]
  rfl

/-- Pins are compared by their names, which are the marks that events leave. -/
theorem map_pin_eq_iff {es fs : List Event} :
    es.map Evaluation.Gpio.pin = fs.map Evaluation.Gpio.pin ↔
      es.map (Event.mark .gpio) = fs.map (Event.mark .gpio) := by
  constructor
  · intro h
    have hmap := congrArg (List.map fun p : String => (p, "")) h
    rw [List.map_map, List.map_map] at hmap
    exact hmap
  · intro h
    have hmap := congrArg (List.map Prod.fst) h
    rw [List.map_map, List.map_map] at hmap
    exact hmap

/-- Where last characters are compared, it does not matter in which form. -/
theorem map_lastChar_eq_iff {es fs : List Event} :
    es.map Event.lastChar = fs.map Event.lastChar ↔
      es.map Event.shownLast = fs.map Event.shownLast := by
  have hinj : Function.Injective fun o : Option Char => String.ofList o.toList := by
    intro o o' heq
    have hlist := String.ofList_inj.1 heq
    cases o <;> cases o' <;> simp_all
  have hshown : ∀ es : List Event, es.map Event.shownLast =
      (es.map Event.lastChar).map fun o => String.ofList o.toList := by
    intro es
    rw [List.map_map]
    rfl
  rw [hshown, hshown]
  exact hinj.list_map.eq_iff.symm

namespace Track

variable {timing : TimingSettings} {s : Subsystem} {j k : Track} {e : Event}
  {log before after : List Event}

/-! ## The reports of a track -/

/-- The event is taken for a report of the track: it comes from the board that makes such reports,
and it is what the evaluation looks for. -/
def Takes (k : Track) (e : Event) : Prop :=
  e.isFrom k.role = true ∧ k.wants e = true

/-- What a log holds of a track. -/
def reports (k : Track) (log : List Event) : List Event :=
  selected k.role k.wants log

/-- What a log holds of a track on one channel. -/
def reportsOn (k : Track) (c : String) (log : List Event) : List Event :=
  onChannel k.subsystem.width c (k.reports log)

theorem reportsOn_append (k : Track) (c : String) (front back : List Event) :
    k.reportsOn c (front ++ back) = k.reportsOn c front ++ k.reportsOn c back := by
  rw [reportsOn, reports, selected, List.filter_append, onChannel, List.filter_append]
  rfl

theorem reportsOn_of_takes (h : k.Takes e) :
    k.reportsOn (e.channel k.subsystem.width) [e] = [e] := by
  obtain ⟨hfrom, hwants⟩ := h
  have hreports : k.reports [e] = [e] := by
    rw [reports, selected, List.filter_singleton, hfrom, hwants]
    rfl
  rw [reportsOn, hreports, onChannel, List.filter_singleton, beq_self_eq_true]
  rfl

theorem reportsOn_of_not_takes (h : ¬k.Takes e) (c : String) : k.reportsOn c [e] = [] := by
  have hreports : k.reports [e] = [] := by
    rw [reports, selected, List.filter_eq_nil_iff]
    intro x hx
    rw [List.mem_singleton.1 hx, Bool.and_eq_true]
    exact h
  rw [reportsOn, hreports]
  rfl

/-- One report more is one more on its channel … -/
theorem length_reportsOn_insert (h : k.Takes e) (before after : List Event) :
    (k.reportsOn (e.channel k.subsystem.width) (before ++ e :: after)).length =
      (k.reportsOn (e.channel k.subsystem.width) (before ++ after)).length + 1 := by
  have hsplit : before ++ e :: after = before ++ ([e] ++ after) := rfl
  rw [hsplit, reportsOn_append, reportsOn_append, reportsOn_of_takes h, reportsOn_append,
    List.length_append, List.length_append, List.length_append, List.length_singleton]
  omega

/-- … and nothing to the other tracks. -/
theorem reportsOn_insert (h : ¬k.Takes e) (c : String) (before after : List Event) :
    k.reportsOn c (before ++ e :: after) = k.reportsOn c (before ++ after) := by
  have hsplit : before ++ e :: after = before ++ ([e] ++ after) := rfl
  rw [hsplit, reportsOn_append, reportsOn_append, reportsOn_of_not_takes h, reportsOn_append,
    List.nil_append]

/-- No event is a report of both boards. -/
theorem not_takes_of_role_ne (h : k.Takes e) (hr : j.role ≠ k.role) : ¬j.Takes e := by
  rintro ⟨hj, -⟩
  have hk := h.1
  cases hjr : j.role with
  | sut =>
    cases hkr : k.role with
    | sut => exact hr (hjr.trans hkr.symm)
    | tester =>
      rw [hjr] at hj
      rw [hkr, Event.not_isFrom_both hj] at hk
      cases hk
  | tester =>
    cases hkr : k.role with
    | sut =>
      rw [hkr] at hk
      rw [hjr, Event.not_isFrom_both hk] at hj
      cases hj
    | tester => exact hr (hjr.trans hkr.symm)

/-! ## They agree -/

/-- **Where nothing is found, all tracks agree on all channels in what is compared.** -/
theorem compared_reportsOn (h : (Evaluation.ofLog timing s log).diagnostics = [])
    (hj : j.subsystem = s) (hk : k.subsystem = s) (c : String) :
    (j.reportsOn c log).map s.compared = (k.reportsOn c log).map s.compared := by
  -- it is enough to compare each track with that of the events that cause the others
  suffices hsource : ∃ i : Track, ∀ k : Track, k.subsystem = s → ∀ c,
      (onChannel s.width c (k.reports log)).map s.compared =
        (onChannel s.width c (i.reports log)).map s.compared by
    obtain ⟨i, hi⟩ := hsource
    rw [reportsOn, reportsOn, hj, hk, hi j hj c, hi k hk c]
  have hpasses := Evaluation.diagnostics_ofLog_eq_nil_iff.1 h
  cases s with
  | lin =>
    obtain ⟨-, -, haccepts⟩ := hpasses
    refine ⟨.linSent, fun k hk c => ?_⟩
    cases k with
    | linSent => rfl
    | linReceived => exact (map_lastChar_eq_iff.1 (haccepts c).1).symm
    | _ => cases hk
  | uart =>
    obtain ⟨-, haccepts⟩ := hpasses
    refine ⟨.uartSent, fun k hk c => ?_⟩
    cases k with
    | uartSent => rfl
    | uartReceived => exact (map_lastChar_eq_iff.1 (haccepts c).1).symm
    | uartEchoed => exact (map_lastChar_eq_iff.1 (haccepts c).2.1).symm
    | _ => cases hk
  | gpio =>
    obtain ⟨-, hup, hdown, -⟩ := hpasses
    refine ⟨.pinOn, fun k hk c => ?_⟩
    rw [compared_onChannel, compared_onChannel]
    cases k with
    | pinOn => rfl
    | pinRising =>
      have hmarks : (pinOn.reports log).map (Event.mark .gpio) =
          (pinRising.reports log).map (Event.mark .gpio) := map_pin_eq_iff.1 hup
      rw [hmarks]
    | pinFalling =>
      have hmarks : (pinOn.reports log).map (Event.mark .gpio) =
          (pinFalling.reports log).map (Event.mark .gpio) := map_pin_eq_iff.1 hdown
      rw [hmarks]
    | _ => cases hk
  | can =>
    refine ⟨.canSent, fun k hk c => ?_⟩
    cases k with
    | canSent => rfl
    | canReceived => exact (hpasses c).1.symm
    | _ => cases hk

theorem length_reportsOn (h : (Evaluation.ofLog timing s log).diagnostics = [])
    (hj : j.subsystem = s) (hk : k.subsystem = s) (c : String) :
    (j.reportsOn c log).length = (k.reportsOn c log).length :=
  length_eq_of_map_eq (compared_reportsOn h hj hk c)

end Track

namespace Evaluation

/-- **No report is lost, and none is made up, without its being noticed.** Take a log in which a
subsystem's evaluation finds nothing, whatever the bounds. Without one of the events that it takes
for reports of its tracks, or with one more of them, at any place in the log, of any payload and at
any time, it finds something. -/
theorem lost_or_extra_report_is_noticed (timing : TimingSettings) (k : Track)
    (before after : List Event) (e : Event) (he : k.Takes e) :
    ((ofLog timing k.subsystem (before ++ e :: after)).diagnostics = [] →
      (ofLog timing k.subsystem (before ++ after)).diagnostics ≠ []) ∧
    ((ofLog timing k.subsystem (before ++ after)).diagnostics = [] →
      (ofLog timing k.subsystem (before ++ e :: after)).diagnostics ≠ []) := by
  obtain ⟨j, hj, hr⟩ := k.exists_counterpart
  -- the other board's track has as many reports in both logs, and this one cannot agree with both
  have hnot : ¬((ofLog timing k.subsystem (before ++ e :: after)).diagnostics = [] ∧
      (ofLog timing k.subsystem (before ++ after)).diagnostics = []) := by
    rintro ⟨hwith, hwithout⟩
    have hmore := Track.length_reportsOn hwith hj rfl (e.channel k.subsystem.width)
    have hless := Track.length_reportsOn hwithout hj rfl (e.channel k.subsystem.width)
    rw [Track.reportsOn_insert (Track.not_takes_of_role_ne he hr), hless,
      Track.length_reportsOn_insert he] at hmore
    omega
  exact ⟨fun hwith hwithout => hnot ⟨hwith, hwithout⟩,
    fun hwithout hwith => hnot ⟨hwith, hwithout⟩⟩

/-- One character that was echoed. -/
def echoedOnce : List Event :=
  [⟨100, .inf, "tester", "serial@40013800 sending: a"⟩,
    ⟨102, .inf, "sut", "serial@40013800 received a"⟩]

/-- An event that is taken for a report of two tracks at once: of a character sent, and of an echo
received. -/
def ambiguous : Event :=
  ⟨90, .inf, "Tester", "serial@40013800 sending: received a"⟩

/-- The echo, which must not be lost. -/
def echo : Event :=
  ⟨104, .inf, "tester", "serial@40013800 received a"⟩

theorem echo_is_missed_and_ambiguous_is_noticed :
    Track.uartEchoed.Takes echo ∧ Track.uartSent.Takes ambiguous ∧
      (ofLog {} .uart (echoedOnce ++ [echo])).diagnostics = [] ∧
      (ofLog {} .uart echoedOnce).diagnostics ≠ [] ∧
      (ofLog {} .uart (ambiguous :: echoedOnce ++ [echo])).diagnostics ≠ [] := by
  have hclean : (ofLog {} .uart (echoedOnce ++ [echo])).diagnostics = [] := by decide +kernel
  have hecho : Track.uartEchoed.Takes echo := ⟨by decide, by decide⟩
  have hambiguous : Track.uartSent.Takes ambiguous := ⟨by decide, by decide⟩
  refine ⟨hecho, hambiguous, hclean, ?_, ?_⟩
  · have hlost := (lost_or_extra_report_is_noticed {} .uartEchoed echoedOnce [] echo hecho).1 hclean
    rwa [List.append_nil] at hlost
  · exact (lost_or_extra_report_is_noticed {} .uartSent [] _ ambiguous hambiguous).2 hclean

end Evaluation

end BoardBench
