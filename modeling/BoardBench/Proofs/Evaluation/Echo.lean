import BoardBench.Proofs.Evaluation.Reports
import BoardBench.Proofs.Evaluation.Streams
import BoardBench.Proofs.Event.Track

/-!
# Echoes — a perfect echo passes, unless a blank is sent

In the UART test the character is the last thing on a line, behind a blank, and it may be any that
can be printed. The reader of lines takes the blanks off the end of a line, and the evaluation takes
the last character of what is left for the datum. Both are right by themselves. But **of a blank,
the reader leaves the word in front of it, and this does not end in the same way at the sender as at
the receivers**: a colon is compared with a `d`. So a blank that came back as it was sent is
reported twice, as not received and as not echoed, and that is all that is reported of a perfect
echo (`Evaluation.Uart.perfect_echo_fails_at_blanks_only`).

The traffic of the other modules leaves the blank out, since a report that ends in one does not come
back from its wire form. Here it is what matters, so that the reports are described as the *lines*
that are printed (`Passage.line`), and the events are what the reader makes of them. For everything
but the blank the two descriptions come to the same.

That the two stations compare a colon with a `d` depends on the words of the firmware, which stand
in front of the datum. They are part of the model of an echo, and not chosen by the proof.
-/

set_option autoImplicit false

namespace BoardBench

/-! ## Reports of an echo -/

/-- What a UART is told by: eight hexadecimal digits, small or large. -/
structure UartId where
  digits : List Char
  width : digits.length = 8
  hex : ∀ c ∈ digits, Text.isHexDigit c = true
deriving DecidableEq

def UartId.channel (u : UartId) : String :=
  Evaluation.Uart.marker ++ String.ofList u.digits

/-- Where a character is seen: when the tester sends it, when the board under test receives it, and
when the tester gets it back. -/
inductive Station where
  | sent
  | received
  | echoed
deriving DecidableEq

namespace Station

def role : Station → Role
  | .sent | .echoed => .tester
  | .received => .sut

def word : Station → String
  | .sent => "sending:"
  | .received | .echoed => "received"

/-- What an evaluation looks for in the reports of a station. -/
def needle : Station → String
  | .sent => "send"
  | .received | .echoed => "received"

end Station

/-- One report on the way of a printable character. -/
structure Passage where
  station : Station
  timeMs : UInt64
  uart : UartId
  char : Char
  printable : ' ' ≤ char ∧ char ≤ '~'
deriving DecidableEq

namespace Passage

/-- The line that is printed for it. -/
def line (p : Passage) : String :=
  "[" ++ Text.decimal p.timeMs.toNat ++ "] <inf> " ++ p.station.role.tag ++ ": "
    ++ p.uart.channel ++ " " ++ p.station.word ++ " " ++ String.singleton p.char

/-- What is behind the word in the payload that is read. -/
def tail (p : Passage) : List Char :=
  if p.char = ' ' then [] else [' ', p.char]

/-- What is read: a blank is not there any more. -/
def event (p : Passage) : Event :=
  ⟨p.timeMs, .inf, p.station.role.tag,
    p.uart.channel ++ " " ++ p.station.word ++ String.ofList p.tail⟩

/-- The reports of one station on one UART. -/
def lane (s : Station) (u : UartId) (ps : List Passage) : List Passage :=
  ps.filter fun p => p.station = s ∧ p.uart = u

/-- The characters that are seen there, in order. -/
def data (s : Station) (u : UartId) (ps : List Passage) : List Char :=
  (lane s u ps).map Passage.char

end Passage

open Passage

/-- Something is sent, and on each UART the board under test receives, and the tester gets back,
what was sent, in this order. The reports may be mixed in any way. -/
structure PerfectEcho (ps : List Passage) : Prop where
  nonempty : ps ≠ []
  received : ∀ u, data .received u ps = data .sent u ps
  echoed : ∀ u, data .echoed u ps = data .sent u ps

theorem data_of_absent {ps : List Passage} {u : UartId} (h : ∀ p ∈ ps, p.uart ≠ u) (s : Station) :
    data s u ps = [] := by
  rw [data, List.map_eq_nil_iff, lane, List.filter_eq_nil_iff]
  intro p hp
  simp [h p hp]

theorem perfectEcho_iff {ps : List Passage} : PerfectEcho ps ↔ ps ≠ [] ∧ ∀ p ∈ ps,
    data .received p.uart ps = data .sent p.uart ps ∧
      data .echoed p.uart ps = data .sent p.uart ps := by
  constructor
  · intro h
    exact ⟨h.nonempty, fun p _ => ⟨h.received p.uart, h.echoed p.uart⟩⟩
  · rintro ⟨hne, hall⟩
    -- on a UART that is not reported of, there is nothing anywhere
    have hcase : ∀ u, (∃ p ∈ ps, p.uart = u) ∨ ∀ s, data s u ps = [] := by
      intro u
      by_cases h : ∃ p ∈ ps, p.uart = u
      · exact Or.inl h
      · exact Or.inr (data_of_absent fun p hp heq => h ⟨p, hp, heq⟩)
    refine ⟨hne, fun u => ?_, fun u => ?_⟩
    · rcases hcase u with ⟨p, hp, rfl⟩ | h
      · exact (hall p hp).1
      · rw [h, h]
    · rcases hcase u with ⟨p, hp, rfl⟩ | h
      · exact (hall p hp).2
      · rw [h, h]

instance (ps : List Passage) : Decidable (PerfectEcho ps) :=
  decidable_of_iff _ perfectEcho_iff.symm

/-! ## What is read -/

theorem Text.isBlank_of_printable {c : Char} (h : ' ' ≤ c ∧ c ≤ '~') (hne : c ≠ ' ') :
    Text.isBlank c = false := by
  obtain ⟨hlow, hhigh⟩ := h
  rw [Char.le_def, UInt32.le_iff_toNat_le] at hlow hhigh
  have hspace : c.toNat ≠ 0x20 := by
    intro heq
    exact hne (Char.toNat_inj.1 heq)
  have hlow' : 0x20 ≤ c.toNat := hlow
  have hhigh' : c.toNat ≤ 0x7E := hhigh
  simp only [Text.isBlank, Bool.or_eq_false_iff, Bool.and_eq_false_iff, decide_eq_false_iff_not,
    beq_eq_false_iff_ne]
  omega

namespace UartId

variable {u v : UartId}

theorem toList_channel (u : UartId) :
    u.channel.toList = Evaluation.Uart.marker.toList ++ u.digits := by
  rw [channel, String.toList_append, String.toList_ofList]

theorem channel_inj (h : u.channel = v.channel) : u = v := by
  have hlist := congrArg String.toList h
  rw [toList_channel, toList_channel] at hlist
  obtain ⟨ds, hwidth, hhex⟩ := u
  obtain ⟨es, hwidth', hhex'⟩ := v
  obtain rfl : ds = es := List.append_cancel_left hlist
  rfl

theorem ascii_of_mem_channel {c : Char} (h : c ∈ u.channel.toList) : c.val ≤ 127 := by
  rw [toList_channel] at h
  rcases List.mem_append.1 h with h | h
  · exact Text.ascii_of_all (by decide) c h
  · exact Text.ascii_of_isHexDigit (u.hex c h)

theorem length_channel (u : UartId) : u.channel.toList.length = Evaluation.Uart.width := by
  rw [toList_channel, List.length_append, u.width]
  rfl

/-- A letter that is no hexadecimal digit can be in a channel only as one of the marker. -/
theorem not_mem_channel {c : Char} (hmarker : c ∉ Evaluation.Uart.marker.toList)
    (hhex : Text.isHexDigit c = false) : c ∉ u.channel.toList := by
  rw [toList_channel, List.mem_append]
  rintro (h | h)
  · exact hmarker h
  · exact absurd (u.hex c h) (by simp [hhex])

end UartId

namespace Passage

variable {p : Passage} {ps : List Passage} {s : Station} {u : UartId}

theorem toList_payload (p : Passage) :
    p.event.payload.toList = p.uart.channel.toList ++ (' ' :: p.station.word.toList ++ p.tail) := by
  simp [event]

/-- The last character of a report of this station: the one that was sent, or what the word ends
in. -/
def shown (s : Station) (c : Char) : Char :=
  if c = ' ' then (if s = .sent then ':' else 'd') else c

theorem getLast_payload (p : Passage) :
    p.event.payload.toList.getLast? = some (shown p.station p.char) := by
  rw [toList_payload, tail, shown]
  split
  · cases p.station with
    | sent => simp [Station.word, List.getLast?_append]
    | received => simp [Station.word, List.getLast?_append]
    | echoed => simp [Station.word, List.getLast?_append]
  · have hend : p.uart.channel.toList ++ (' ' :: p.station.word.toList ++ [' ', p.char]) =
        p.uart.channel.toList ++ (' ' :: p.station.word.toList) ++ [' '] ++ [p.char] := by simp
    rw [hend, List.getLast?_concat]

theorem not_isBlank_shown (p : Passage) : Text.isBlank (shown p.station p.char) = false := by
  rw [shown]
  split
  · split
    · decide
    · decide
  · rename_i hne
    exact Text.isBlank_of_printable p.printable hne

theorem legible_event (p : Passage) : p.event.Legible := by
  have hhead : p.event.payload.toList.head? = some 's' := by
    rw [toList_payload, UartId.toList_channel]
    rfl
  exact Event.legible_inf hhead (by decide) (getLast_payload p) (not_isBlank_shown p)

/-- **Every line of an echo can be read.** -/
theorem parse_line (p : Passage) : Line.parse p.line = .ok (.event p.event) := by
  have hline : p.line.toList = p.event.wire.toList ++ if p.char = ' ' then [' ', ' '] else [] := by
    simp only [line, Event.wire, event, tail, Level.token]
    split
    · rename_i hblank
      simp [hblank]
    · simp
  refine Line.parse_wire_append (legible_event p) ?_ hline
  intro c hc
  split at hc
  · simp only [List.mem_cons, List.not_mem_nil, or_false, or_self] at hc
    rw [hc]
    rfl
  · cases hc

theorem channel_event (p : Passage) :
    p.event.channel Evaluation.Uart.width = p.uart.channel := by
  have hcut : Text.firstBytes Evaluation.Uart.width p.event.payload.toList =
      some p.uart.channel.toList := by
    rw [toList_payload, ← p.uart.length_channel]
    exact Text.firstBytes_of_ascii _ fun c => UartId.ascii_of_mem_channel
  rw [Event.channel, hcut]
  exact String.ofList_toList

/-! ## What an evaluation takes for what -/

theorem mentions_marker (p : Passage) : p.event.mentions Evaluation.Uart.marker = true := by
  refine Text.occursIn_iff.2 ⟨[], p.uart.digits ++ (' ' :: p.station.word.toList ++ p.tail), ?_⟩
  rw [toList_payload, UartId.toList_channel]
  simp

theorem mentions_word {needle : String} (h : Text.contains p.station.word needle = true) :
    p.event.mentions needle = true := by
  obtain ⟨front, back, heq⟩ := Text.occursIn_iff.1 h
  refine Text.occursIn_iff.2 ⟨p.uart.channel.toList ++ ' ' :: front, back ++ p.tail, ?_⟩
  rw [toList_payload, ← heq]
  simp

/-- A word with a letter in it that no payload of this station has, except maybe as its last
character. -/
theorem not_mentions {needle : String} (c : Char) (hn : c ∈ needle.toList.dropLast)
    (hmarker : c ∉ Evaluation.Uart.marker.toList) (hhex : Text.isHexDigit c = false)
    (hword : c ∉ p.station.word.toList) (hblank : c ≠ ' ') :
    p.event.mentions needle = false := by
  refine Event.not_mentions c hn fun hmem => ?_
  have hfront : c ∉ p.uart.channel.toList ++ (' ' :: p.station.word.toList) := by
    rw [List.mem_append, List.mem_cons]
    rintro (h | h | h)
    · exact UartId.not_mem_channel hmarker hhex h
    · exact hblank h
    · exact hword h
  rw [toList_payload, ← List.append_assoc, tail] at hmem
  split at hmem
  · rw [List.append_nil] at hmem
    exact hfront (List.dropLast_subset _ hmem)
  · rw [List.dropLast_append_of_ne_nil (List.cons_ne_nil _ _), List.mem_append] at hmem
    rcases hmem with hmem | hmem
    · exact hfront hmem
    · exact hblank (List.mem_singleton.1 hmem)

theorem isFrom_event (p : Passage) (r : Role) :
    p.event.isFrom r = decide (p.station.role = r) :=
  Event.isFrom_tag _ _ _ _

/-- **An evaluation tells the stations apart.** -/
theorem wants_event (p : Passage) (s : Station) :
    (p.event.isFrom s.role && (p.event.mentions Evaluation.Uart.marker &&
      p.event.mentions s.needle)) = decide (p.station = s) := by
  rw [mentions_marker, Bool.true_and, isFrom_event]
  -- of the two stations at the tester, each has a letter in its word that the other has not
  cases hp : p.station with
  | sent =>
    cases s with
    | sent => exact mentions_word (by rw [hp]; decide)
    | received => rfl
    | echoed =>
      exact not_mentions 'v' (by decide) (by decide) (by decide) (by rw [hp]; decide) (by decide)
  | received =>
    cases s with
    | sent => rfl
    | received => exact mentions_word (by rw [hp]; decide)
    | echoed => rfl
  | echoed =>
    cases s with
    | sent =>
      exact not_mentions 'n' (by decide) (by decide) (by decide) (by rw [hp]; decide) (by decide)
    | received => rfl
    | echoed => exact mentions_word (by rw [hp]; decide)

theorem selected_events (s : Station) (ps : List Passage) :
    selected s.role (fun e => e.mentions Evaluation.Uart.marker && e.mentions s.needle)
        (ps.map event) = (ps.filter (·.station = s)).map event := by
  rw [selected, List.filter_map]
  exact congrArg _ (List.filter_congr fun p _ => wants_event p s)

theorem onChannel_events (s : Station) (u : UartId) (ps : List Passage) :
    onChannel Evaluation.Uart.width u.channel ((ps.filter (·.station = s)).map event) =
      (lane s u ps).map event := by
  rw [onChannel, List.filter_map, List.filter_filter, lane]
  refine congrArg _ (List.filter_congr fun p _ => ?_)
  rw [Function.comp_apply, channel_event, Bool.eq_iff_iff, Bool.and_eq_true_iff, beq_iff_eq,
    decide_eq_true_iff, decide_eq_true_iff, and_comm]
  exact and_congr_right fun _ => ⟨UartId.channel_inj, congrArg UartId.channel⟩

theorem lastChars_lane (s : Station) (u : UartId) (ps : List Passage) :
    ((lane s u ps).map event).map Event.lastChar = (data s u ps).map fun c => some (shown s c) := by
  rw [data, List.map_map, List.map_map]
  refine List.map_congr_left fun p hp => ?_
  have hstation : p.station = s := (of_decide_eq_true (List.mem_filter.1 hp).2).1
  rw [Function.comp_apply, Function.comp_apply, Event.lastChar, getLast_payload, hstation]

theorem length_lane (s : Station) (u : UartId) (ps : List Passage) :
    ((lane s u ps).map event).length = (data s u ps).length := by
  rw [data, List.length_map, List.length_map]

end Passage

/-! ## What is reported of an echo -/

namespace Evaluation.Uart

variable {c : String} {sents receiveds echoes : List Event}

/-- The wording for a character that does not arrive as it was sent. -/
def mismatchLine (channel : String) (position : Nat) (sent : Option Char) (receiver : String)
    (received : Option Char) : String :=
  channel ++ ": Character at index " ++ Text.decimal position ++ " sent by tester ("
    ++ String.ofList sent.toList ++ ") does not match character received by " ++ receiver ++ " ("
    ++ String.ofList received.toList ++ ")"

theorem wordings_mismatch_eq (i : Nat) (s : Event) (receiver : String) (r : Event) :
    wordings (mismatch c i s receiver r) =
      if s.lastChar = r.lastChar then [] else
        [mismatchLine c i s.lastChar receiver r.lastChar] := by
  rw [mismatch]
  split
  · rfl
  · rfl

/-- What is said of two sequences is said of the last characters in them. -/
theorem wordings_characterDiagnostics (c : String) (sents receiveds echoes : List Event) :
    wordings (characterDiagnostics c sents receiveds echoes) =
      (((sents.map Event.lastChar).zip (receiveds.map Event.lastChar)).zip
        (echoes.map Event.lastChar)).zipIdx.flatMap fun x =>
          (if x.1.1.1 = x.1.1.2 then [] else [mismatchLine c x.2 x.1.1.1 "SUT" x.1.1.2]) ++
            if x.1.1.1 = x.1.2 then [] else [mismatchLine c x.2 x.1.1.1 "tester" x.1.2] := by
  rw [List.zip_map, List.zip_map, List.zipIdx_map, List.flatMap_map, characterDiagnostics,
    wordings_flatMap]
  refine List.flatMap_congr fun x _ => ?_
  rw [wordings_append, wordings_mismatch_eq, wordings_mismatch_eq]
  rfl

/-- What is said of the characters of an echo that comes back as it was sent: of each blank, that
its colon is a `d` at both receivers. -/
def blankLines (channel : String) (cs : List Char) : List String :=
  cs.zipIdx.flatMap fun x =>
    if x.1 = ' ' then
      [mismatchLine channel x.2 (some ':') "SUT" (some 'd'),
        mismatchLine channel x.2 (some ':') "tester" (some 'd')]
    else []

theorem blankLines_eq_nil_iff {cs : List Char} : blankLines c cs = [] ↔ ∀ x ∈ cs, x ≠ ' ' := by
  rw [blankLines, List.flatMap_eq_nil_iff,
    ← forall_mem_zipIdx_iff (P := fun x : Char => x ≠ ' ')]
  refine forall_congr' fun x => forall_congr' fun _ => ?_
  split
  · rename_i hblank
    simp [hblank]
  · rename_i hother
    simp [hother]

variable {ps : List Passage} {u : UartId}

/-- One UART of a perfect echo. -/
theorem wordings_lane (h : PerfectEcho ps) (u : UartId) :
    wordings (channelDiagnostics none u.channel ((lane .sent u ps).map event)
        ((lane .received u ps).map event) ((lane .echoed u ps).map event)) =
      blankLines u.channel (data .sent u ps) := by
  rw [channelDiagnostics_eq, if_pos]
  · rw [List.append_nil, wordings_characterDiagnostics, lastChars_lane, lastChars_lane,
      lastChars_lane, h.received u, h.echoed u, List.zip_map', List.zip_map', List.zipIdx_map,
      List.flatMap_map, blankLines]
    refine List.flatMap_congr fun x _ => ?_
    by_cases hblank : x.1 = ' '
    · simp [shown, hblank]
    · simp [shown, hblank]
  · rw [length_lane, length_lane, length_lane, h.received u, h.echoed u]
    exact ⟨rfl, rfl⟩

theorem serialOn_channel (s : Station) (u : UartId) (ps : List Passage) :
    serialOn s.role s.needle u.channel (ps.map event) = (lane s u ps).map event := by
  show onChannel width u.channel (selected s.role
    (fun e => e.mentions marker && e.mentions s.needle) (ps.map event)) = _
  rw [selected_events, onChannel_events]

/-- Whatever is reported, anywhere, was sent. -/
theorem char_mem_sent (h : PerfectEcho ps) {p : Passage} (hp : p ∈ ps) :
    p.char ∈ data .sent p.uart ps := by
  have hmem : p.char ∈ data p.station p.uart ps :=
    List.mem_map_of_mem (List.mem_filter.2 ⟨hp, decide_eq_true ⟨rfl, rfl⟩⟩)
  have hsame : data p.station p.uart ps = data .sent p.uart ps := by
    cases p.station with
    | sent => rfl
    | received => exact h.received p.uart
    | echoed => exact h.echoed p.uart
  rw [← hsame]
  exact hmem

theorem data_sent_ne_nil (h : PerfectEcho ps) {p : Passage} (hp : p ∈ ps) :
    data .sent p.uart ps ≠ [] :=
  List.ne_nil_of_mem (char_mem_sent h hp)

theorem mem_channels_echo_iff (h : PerfectEcho ps) {c : String} :
    c ∈ channels width [sent (ps.map event), echoed (ps.map event), received (ps.map event)] ↔
      ∃ u, data .sent u ps ≠ [] ∧ u.channel = c := by
  rw [mem_channels_iff]
  constructor
  · -- whatever is on a channel is a report, and so about a UART
    have hreport : ∀ r word, serialOn r word c (ps.map event) ≠ [] →
        ∃ u, data .sent u ps ≠ [] ∧ u.channel = c := by
      intro r word hne
      obtain ⟨e, he⟩ := List.exists_mem_of_ne_nil _ hne
      obtain ⟨he, hchannel⟩ := List.mem_filter.1 he
      obtain ⟨p, hp, rfl⟩ := List.mem_map.1 (List.mem_filter.1 he).1
      exact ⟨p.uart, data_sent_ne_nil h hp, (channel_event p).symm.trans (beq_iff_eq.1 hchannel)⟩
    rintro (hne | hne | hne)
    · exact hreport _ _ hne
    · exact hreport _ _ hne
    · exact hreport _ _ hne
  · rintro ⟨u, hu, rfl⟩
    left
    have hlane : serialOn .tester "send" u.channel (ps.map event) = (lane .sent u ps).map event :=
      serialOn_channel .sent u ps
    rw [hlane, Ne, List.map_eq_nil_iff]
    exact fun hnil => hu (by rw [data, hnil, List.map_nil])

/-- What is reported of a perfect echo is about its UARTs, and of each it is the blanks. -/
theorem wordings_echo (h : PerfectEcho ps) :
    (∀ d ∈ (findings none (ps.map event)).diagnostics,
      ∃ u, data .sent u ps ≠ [] ∧ d.channel? = some u.channel) ∧
    ∀ u, wordings (diagnosticsOn u.channel (findings none (ps.map event)).diagnostics) =
      blankLines u.channel (data .sent u ps) := by
  -- an echo is of something, so the evaluation does not stop for want of traffic
  have hsent : sent (ps.map event) ≠ [] := by
    obtain ⟨p, hp⟩ := List.exists_mem_of_ne_nil ps h.nonempty
    have hlane := serialOn_channel .sent p.uart ps
    intro hnil
    have hempty : serialOn .tester "send" p.uart.channel (ps.map event) = [] := by
      show (sent (ps.map event)).filter _ = []
      rw [hnil, List.filter_nil]
    refine data_sent_ne_nil h hp ?_
    rw [data, List.map_eq_nil_iff.1 (hlane.symm.trans hempty), List.map_nil]
  obtain ⟨habout, hon⟩ := about_channels (@diagnostics_findings_of_present none _ hsent)
    (nodup_channels _ _) (fun c => allOn_channelDiagnostics none c _ _ _)
    fun c => mem_channels_echo_iff h
  refine ⟨fun d hd => ?_, fun u => ?_⟩
  · obtain ⟨_, hd, u, hu, rfl⟩ := habout d hd
    exact ⟨u, hu, hd⟩
  -- a UART without traffic has no diagnostics and no blanks
  · by_cases hu : data .sent u ps = []
    · have hnone : diagnosticsOn u.channel (findings none (ps.map event)).diagnostics = [] := by
        rw [diagnosticsOn, List.filter_eq_nil_iff]
        intro d hd hchannel
        obtain ⟨_, hd', v, hv, rfl⟩ := habout d hd
        rw [hd', beq_iff_eq, Option.some.injEq] at hchannel
        exact hv (UartId.channel_inj hchannel ▸ hu)
      rw [hnone, hu]
      rfl
    · have hsent := serialOn_channel .sent u ps
      have hreceived := serialOn_channel .received u ps
      have hechoed := serialOn_channel .echoed u ps
      rw [hon u.channel ⟨u, hu, rfl⟩, ← wordings_lane h u, ← hsent, ← hreceived, ← hechoed]
      rfl

/-- **A perfect echo passes if and only if no blank was sent.** All its lines can be read, and if
the spacing is not checked, then whatever is reported is about one of its UARTs, and of each the
report is that every blank was garbled twice, by the board under test and on the way back. -/
theorem perfect_echo_fails_at_blanks_only (timing : TimingSettings) (h : PerfectEcho ps) :
    ∃ log : List Event,
      ps.map (fun p => Line.parse p.line) = log.map (fun e => .ok (.event e)) ∧
      ((ofLog { timing with uart := none } .uart log).diagnostics = [] ↔
        ∀ p ∈ ps, p.char ≠ ' ') ∧
      (∀ d ∈ (ofLog { timing with uart := none } .uart log).diagnostics,
        ∃ u : UartId, d.channel? = some u.channel) ∧
      ∀ u : UartId,
        (diagnosticsOn u.channel (ofLog { timing with uart := none } .uart log).diagnostics).map
          Diagnostic.message = blankLines u.channel (data .sent u ps) := by
  obtain ⟨habout, hwords⟩ := wordings_echo h
  refine ⟨ps.map event, ?_, ⟨fun hnil p hp hblank => ?_, fun hplain => ?_⟩, fun d hd => ?_, hwords⟩
  · rw [List.map_map]
    exact List.map_congr_left fun p _ => parse_line p
  · have hon := hwords p.uart
    have hnil' : (findings none (ps.map event)).diagnostics = [] := hnil
    rw [hnil'] at hon
    exact blankLines_eq_nil_iff.1 hon.symm p.char (char_mem_sent h hp) hblank
  -- a diagnostic would be worded as one of the blanks of its UART, of which there is none
  · refine List.eq_nil_iff_forall_not_mem.2 fun d hd => ?_
    obtain ⟨u, -, hchannel⟩ := habout d hd
    have hnone : blankLines u.channel (data .sent u ps) = [] := by
      refine blankLines_eq_nil_iff.2 fun x hx => ?_
      obtain ⟨p, hp, rfl⟩ := List.mem_map.1 hx
      exact hplain p (List.mem_filter.1 hp).1
    have hmem : d.message ∈ wordings (diagnosticsOn u.channel
        (findings none (ps.map event)).diagnostics) :=
      List.mem_map_of_mem (List.mem_filter.2 ⟨hd, by rw [hchannel, beq_self_eq_true]⟩)
    rw [hwords u, hnone] at hmem
    cases hmem
  · obtain ⟨u, -, hchannel⟩ := habout d hd
    exact ⟨u, hchannel⟩

/-- The three reports of one character. -/
def exchange (timeMs : UInt64) (u : UartId) (char : Char) (h : ' ' ≤ char ∧ char ≤ '~') :
    List Passage :=
  [⟨.sent, timeMs, u, char, h⟩, ⟨.received, timeMs + 2, u, char, h⟩,
    ⟨.echoed, timeMs + 4, u, char, h⟩]

def firstUart : UartId :=
  { digits := ['4', '0', '0', '1', '3', '8', '0', '0'], width := rfl,
    hex := List.forall_iff_forall_mem.1 (by decide) }

def secondUart : UartId :=
  { digits := ['4', '0', '0', '1', 'A', 'b', 'C', 'd'], width := rfl,
    hex := List.forall_iff_forall_mem.1 (by decide) }

/-- Two characters on one UART and a blank on another, reported one after the other. -/
def spacedEcho : List Passage :=
  exchange 1000 firstUart 'h' (by decide) ++ exchange 1100 secondUart ' ' (by decide) ++
    exchange 1200 firstUart '~' (by decide)

theorem spacedEcho_fails_at_its_blank :
    PerfectEcho spacedEcho ∧
    ∃ log : List Event,
      spacedEcho.map (fun p => Line.parse p.line) = log.map (fun e => .ok (.event e)) ∧
      ((ofLog {} .uart log).diagnostics = [] ↔ ∀ p ∈ spacedEcho, p.char ≠ ' ') ∧
      (∀ d ∈ (ofLog {} .uart log).diagnostics, ∃ u : UartId, d.channel? = some u.channel) ∧
      ∀ u : UartId, (diagnosticsOn u.channel (ofLog {} .uart log).diagnostics).map
        Diagnostic.message = blankLines u.channel (data .sent u spacedEcho) := by
  have h : PerfectEcho spacedEcho := by decide +kernel
  exact ⟨h, perfect_echo_fails_at_blanks_only {} h⟩

/-- A blank that was sent, received and echoed is taken for a colon that arrived as a `d`. -/
theorem blank_is_reported_as_garbled :
    PerfectEcho (exchange 1000 firstUart ' ' (by decide)) ∧
      (exchange 1000 firstUart ' ' (by decide)).map Passage.line =
        ["[1000] <inf> tester: serial@40013800 sending:  ",
          "[1002] <inf> sut: serial@40013800 received  ",
          "[1004] <inf> tester: serial@40013800 received  "] ∧
      ∃ log : List Event,
        (exchange 1000 firstUart ' ' (by decide)).map (fun p => Line.parse p.line) =
          log.map (fun e => .ok (.event e)) ∧
        (ofLog {} .uart log).diagnostics.map Diagnostic.message =
          ["serial@40013800: Character at index 0 sent by tester (:) does not match character " ++
              "received by SUT (d)",
            "serial@40013800: Character at index 0 sent by tester (:) does not match character " ++
              "received by tester (d)"] :=
  ⟨by decide +kernel, by decide +kernel,
    [⟨1000, .inf, "tester", "serial@40013800 sending:"⟩,
      ⟨1002, .inf, "sut", "serial@40013800 received"⟩,
      ⟨1004, .inf, "tester", "serial@40013800 received"⟩], by decide +kernel, by decide +kernel⟩

end Evaluation.Uart

end BoardBench
