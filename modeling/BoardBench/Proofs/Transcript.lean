import BoardBench.Evaluation.OfLog
import BoardBench.Proofs.Event.Grammar
import BoardBench.Proofs.Evaluation.Breakdown
import BoardBench.Proofs.Identification

/-!
# Transcripts — what was written can be read back

A transcript is a text for people, but nothing in it is lost. `Transcript.sections` is its reader: a
line that is set in belongs to the heading before it. **It gets back from a transcript the
violations, the errors that devices logged, and the whole log** (`transcripts_lose_nothing`),
whatever stands in the payloads: those may look like a heading or like a violation, but they cannot
break a line, and they are set in.

So the one thing to know of a violation is that its text is one line. It is put together from the
log and from fixed words, and `Diagnostic.texts` says from which: the rest is a walk through the
evaluations (`Evaluation.isLine_diagnostics`).

The reader is part of the module, and it is as simple as a person: set-in lines belong to the last
line that is not. That this works for all logs is not a matter of escaping, since nothing is
escaped, but of two facts about single lines. An event that was read from a line has no line end in
it, and a violation is made of texts that come from such events.

The second one needs a walk through all evaluations, and there the question is what to carry along.
It is the property of a list of violations that all are made of single lines (`AllSingleLine`). Each
way in which evaluations build such lists keeps it, channel by channel, pair by pair, or by counts,
and what is left for the single evaluation is to say which of these ways it takes.
-/

set_option autoImplicit false

namespace BoardBench

namespace Text

/-! ## Lines of a text -/

/-- The text has no line end in it. -/
def IsLine (text : String) : Prop :=
  '\n' ∉ text.toList

instance (text : String) : Decidable (IsLine text) :=
  inferInstanceAs (Decidable ('\n' ∉ text.toList))

/-- What stands between the line ends of a text. -/
def lines (text : String) : List String :=
  (text.toList.splitOn '\n').map String.ofList

@[simp] theorem isLine_append {a b : String} : IsLine (a ++ b) ↔ IsLine a ∧ IsLine b := by
  simp [IsLine]

@[simp] theorem isLine_decimal (n : Nat) : IsLine (decimal n) := by
  intro hmem
  rw [decimal, String.toList_ofList] at hmem
  obtain ⟨d, hd, hc⟩ := mem_digits hmem
  have hall : ∀ d : Fin 10, '\n' ≠ digitChar d := by decide
  exact hall ⟨d, hd⟩ hc

@[simp] theorem isLine_signedDecimal (n : Int) : IsLine (signedDecimal n) := by
  cases n with
  | ofNat n => exact isLine_decimal n
  | negSucc n => exact isLine_append.2 ⟨by decide, isLine_decimal (n + 1)⟩

/-- **Lines that are joined by line ends come back.** -/
theorem lines_joined {texts : List String} (hne : texts ≠ []) (h : ∀ t ∈ texts, IsLine t) :
    lines (joined "\n" texts) = texts := by
  have hmap : texts.map String.toList ≠ [] := by simpa using hne
  have hline : ∀ cs ∈ texts.map String.toList, '\n' ∉ cs := by
    intro cs hcs
    obtain ⟨t, ht, rfl⟩ := List.mem_map.1 hcs
    exact h t ht
  rw [lines, joined, String.toList_intercalate, show "\n".toList = ['\n'] from rfl,
    List.splitOn_intercalate '\n' hline hmap, List.map_map]
  simp [Function.comp_def]

end Text

open Text (IsLine)

/-! ## Reading a transcript -/

namespace Transcript

/-- A heading, and the lines under it. -/
structure Section where
  heading : String
  body : List String
deriving Repr, DecidableEq

/-- The line is set in by two blanks. -/
def isIndented (line : String) : Bool :=
  "  ".toList.isPrefixOf line.toList

/-- Reads lines as sections: those that are set in belong to the heading before them. -/
def sections : List String → List Section
  | [] => []
  | heading :: rest =>
    ⟨heading, rest.takeWhile isIndented⟩ :: sections (rest.dropWhile isIndented)
termination_by lines => lines.length
decreasing_by exact Nat.lt_succ_of_le (List.length_dropWhile_le _ _)

def Section.lines (s : Section) : List String :=
  s.heading :: s.body

/-- Exactly the lines under the heading are set in, and all of them are single lines. -/
structure Section.SetIn (s : Section) : Prop where
  heading : isIndented s.heading = false
  body : ∀ line ∈ s.body, isIndented line = true
  single : ∀ line ∈ s.lines, IsLine line

theorem isIndented_append (line : String) : isIndented ("  " ++ line) = true := by
  rw [isIndented, String.toList_append, List.isPrefixOf_iff_prefix]
  apply List.prefix_append

/-- **Sections are read back**, -/
theorem sections_flatMap {ss : List Section} (h : ∀ s ∈ ss, s.SetIn) :
    sections (ss.flatMap Section.lines) = ss := by
  induction ss with
  | nil => rw [List.flatMap_nil, sections]
  | cons s rest ih =>
    obtain ⟨hs, hrest⟩ := List.forall_mem_cons.1 h
    -- what follows the section is nothing, or another heading
    have hstop : (rest.flatMap Section.lines).takeWhile isIndented = [] ∧
        (rest.flatMap Section.lines).dropWhile isIndented = rest.flatMap Section.lines := by
      cases rest with
      | nil => exact ⟨rfl, rfl⟩
      | cons t others =>
        have hheading : ¬ isIndented t.heading = true := by
          simp [(hrest t List.mem_cons_self).heading]
        rw [List.flatMap_cons, Section.lines, List.cons_append]
        exact ⟨List.takeWhile_cons_of_neg hheading, List.dropWhile_cons_of_neg hheading⟩
    rw [List.flatMap_cons, Section.lines, List.cons_append, sections,
      List.takeWhile_append_of_pos hs.body, List.dropWhile_append_of_pos hs.body, hstop.1, hstop.2,
      ih hrest, List.append_nil]

/-- and what is not set in are their headings. -/
theorem filter_flatMap_lines {ss : List Section} (h : ∀ s ∈ ss, s.SetIn) :
    (ss.flatMap Section.lines).filter (!isIndented ·) = ss.map Section.heading := by
  induction ss with
  | nil => rfl
  | cons s rest ih =>
    obtain ⟨hs, hrest⟩ := List.forall_mem_cons.1 h
    have hbody : s.body.filter (!isIndented ·) = [] := by
      rw [List.filter_eq_nil_iff]
      intro line hline
      simp [hs.body line hline]
    rw [List.flatMap_cons, List.filter_append, ih hrest, Section.lines,
      List.filter_cons_of_pos (by simp [hs.heading]), hbody]
    rfl

/-- **A text whose lines are sections is read as these.** -/
theorem lines_joined_sections {ss : List Section} (hne : ss ≠ []) (h : ∀ s ∈ ss, s.SetIn) :
    (Text.lines (Text.joined "\n" (ss.flatMap Section.lines))).filter (!isIndented ·) =
        ss.map Section.heading ∧
      sections (Text.lines (Text.joined "\n" (ss.flatMap Section.lines))) = ss := by
  have hsome : ss.flatMap Section.lines ≠ [] := by
    obtain ⟨s, rest, rfl⟩ := List.exists_cons_of_ne_nil hne
    simp [Section.lines]
  have hall : ∀ line ∈ ss.flatMap Section.lines, IsLine line := by
    intro line hline
    obtain ⟨s, hs, hmem⟩ := List.mem_flatMap.1 hline
    exact (h s hs).single line hmem
  rw [Text.lines_joined hsome hall]
  exact ⟨filter_flatMap_lines h, sections_flatMap h⟩

end Transcript

/-! ## The texts of a violation -/

namespace Diagnostic

/-- The texts that the wording of a violation is made of, besides numbers and fixed words. -/
def texts : Diagnostic → List String
  | .plain text => [text]
  | .missing what => [what]
  | .counts channel reference other => [channel, reference.label, other.label]
  | .spacing channel what .. => [channel, what]
  | .skipped channel check => [channel, check]
  | .pins _ left right _ => [left, right]
  | .character channel _ sent receiver received =>
    [channel, sent.payload, receiver, received.payload]
  | .payload channel _ sent received => [channel, sent.payload, received.payload]
  | .frame channel _ sent received => [channel, sent.payload, received.payload]
  | .fewFrames channel => [channel]

/-- None of these texts has a line end in it. -/
def SingleLine (d : Diagnostic) : Prop :=
  ∀ t ∈ d.texts, IsLine t

end Diagnostic

theorem Event.isLine_shownLast {e : Event} (h : IsLine e.payload) : IsLine e.shownLast := by
  intro hmem
  rw [Event.shownLast, String.toList_ofList, Option.mem_toList, Event.lastChar] at hmem
  exact h (List.mem_of_getLast? hmem)

theorem PinPair.isLine_description (p : PinPair) : IsLine p.description := by
  cases p <;> decide

/-- **A violation that is made of single lines is worded in one line.** -/
theorem Diagnostic.SingleLine.message {d : Diagnostic} (h : d.SingleLine) : IsLine d.message := by
  -- A wording is its fixed words, its numbers and what it cites. None of the words or numbers
  -- breaks a line, so each case only has to name what it cites.
  cases d with
  | plain text => exact h text List.mem_cons_self
  | missing what =>
    have hwhat : IsLine what := by simpa [SingleLine, texts] using h
    change IsLine (_ ++ what)
    simp +decide [hwhat]
  | counts channel reference other =>
    obtain ⟨hchannel, hreference, hother⟩ :
        IsLine channel ∧ IsLine reference.label ∧ IsLine other.label := by
      simpa [SingleLine, texts] using h
    change IsLine (channel ++ _ ++ reference.label ++ _ ++ Text.decimal _ ++ _ ++ other.label ++
      _ ++ Text.decimal _ ++ _)
    simp +decide [hchannel, hreference, hother]
  | spacing channel what position bounds previous current =>
    obtain ⟨hchannel, hwhat⟩ : IsLine channel ∧ IsLine what := by
      simpa [SingleLine, texts] using h
    change IsLine (channel ++ _ ++ what ++ _ ++ Text.signedDecimal _ ++ _ ++ Text.decimal _ ++ _ ++
      Text.signedDecimal _ ++ _ ++ Text.signedDecimal _ ++ _ ++ Text.decimal _ ++ _ ++
      Text.decimal _ ++ _)
    simp +decide [hchannel, hwhat]
  | skipped channel check =>
    obtain ⟨hchannel, hcheck⟩ : IsLine channel ∧ IsLine check := by
      simpa [SingleLine, texts] using h
    change IsLine (channel ++ _ ++ check ++ _)
    simp +decide [hchannel, hcheck]
  | pins pair left right position =>
    obtain ⟨hleft, hright⟩ : IsLine left ∧ IsLine right := by
      simpa [SingleLine, texts] using h
    change IsLine (_ ++ pair.description ++ _ ++ left ++ _ ++ right ++ _ ++ Text.decimal _)
    simp +decide [hleft, hright, pair.isLine_description]
  | character channel position sent receiver received =>
    obtain ⟨hchannel, hsent, hreceiver, hreceived⟩ :
        IsLine channel ∧ IsLine sent.payload ∧ IsLine receiver ∧ IsLine received.payload := by
      simpa [SingleLine, texts] using h
    change IsLine (channel ++ _ ++ Text.decimal _ ++ _ ++ sent.shownLast ++ _ ++ receiver ++ _ ++
      received.shownLast ++ _)
    simp +decide [hchannel, hreceiver, Event.isLine_shownLast hsent,
      Event.isLine_shownLast hreceived]
  | payload channel position sent received =>
    obtain ⟨hchannel, hsent, hreceived⟩ :
        IsLine channel ∧ IsLine sent.payload ∧ IsLine received.payload := by
      simpa [SingleLine, texts] using h
    change IsLine (channel ++ _ ++ Text.decimal _ ++ _ ++ sent.payload ++ _ ++ received.payload)
    simp +decide [hchannel, hsent, hreceived]
  | frame channel position sent received =>
    obtain ⟨hchannel, hsent, hreceived⟩ :
        IsLine channel ∧ IsLine sent.payload ∧ IsLine received.payload := by
      simpa [SingleLine, texts] using h
    change IsLine (channel ++ _ ++ sent.payload ++ _ ++ received.payload ++ _ ++ Text.decimal _ ++
      _ ++ sent.shownLast ++ _ ++ received.shownLast ++ _)
    simp +decide [hchannel, hsent, hreceived, Event.isLine_shownLast hsent,
      Event.isLine_shownLast hreceived]
  | fewFrames channel =>
    have hchannel : IsLine channel := by simpa [SingleLine, texts] using h
    change IsLine (channel ++ _)
    simp +decide [hchannel]

/-! ## The violations of an evaluation -/

/-- The payloads are single lines. -/
def SingleLines (events : List Event) : Prop :=
  ∀ e ∈ events, IsLine e.payload

/-- The violations are made of single lines. -/
def AllSingleLine (ds : List Diagnostic) : Prop :=
  ∀ d ∈ ds, d.SingleLine

section Violations

variable {log events sents receiveds : List Event} {channel : String} {ds es : List Diagnostic}

theorem SingleLines.filter (h : SingleLines log) (p : Event → Bool) :
    SingleLines (log.filter p) := by
  intro e he
  exact h e (List.mem_filter.1 he).1

theorem AllSingleLine.append (hd : AllSingleLine ds) (he : AllSingleLine es) :
    AllSingleLine (ds ++ es) :=
  List.forall_mem_append.2 ⟨hd, he⟩

theorem Event.isLine_channel {e : Event} (h : IsLine e.payload) (width : Nat) :
    IsLine (e.channel width) := by
  intro hmem
  rcases e.hasChannel_channel width with ⟨hfront, -⟩ | ⟨hwhole, -⟩
  · exact h (hfront.subset hmem)
  · rw [hwhole] at hmem
    exact h hmem

/-- Going through the channels that occur. -/
theorem allSingleLine_channels {width : Nat} {categories : List (List Event)}
    {f : String → List Diagnostic} (h : ∀ events ∈ categories, SingleLines events)
    (hf : ∀ c, IsLine c → AllSingleLine (f c)) :
    AllSingleLine ((channels width categories).flatMap f) := by
  intro d hd
  obtain ⟨c, hc, hd⟩ := List.mem_flatMap.1 hd
  obtain ⟨events, hevents, e, he, rfl⟩ := mem_channels.1 hc
  exact hf _ (e.isLine_channel (h events hevents e he) width) d hd

/-- Going through pairs of events. -/
theorem allSingleLine_pairs {f : (Event × Event) × Nat → Option Diagnostic}
    (hs : SingleLines sents) (hr : SingleLines receiveds)
    (hf : ∀ s r i d, IsLine s.payload → IsLine r.payload → f ((s, r), i) = some d →
      d.SingleLine) :
    AllSingleLine ((sents.zip receiveds).zipIdx.filterMap f) := by
  intro d hd
  obtain ⟨⟨⟨s, r⟩, i⟩, hmem, hp⟩ := List.mem_filterMap.1 hd
  obtain ⟨hs', hr'⟩ := List.of_mem_zip (List.fst_mem_of_mem_zipIdx hmem)
  exact hf s r i d (hs s hs') (hr r hr') hp

/-- Going through three sequences at once. -/
theorem allSingleLine_triples {firsts seconds thirds : List Event}
    {f : ((Event × Event) × Event) × Nat → List Diagnostic} (h₁ : SingleLines firsts)
    (h₂ : SingleLines seconds) (h₃ : SingleLines thirds)
    (hf : ∀ x y z i, IsLine x.payload → IsLine y.payload → IsLine z.payload →
      AllSingleLine (f (((x, y), z), i))) :
    AllSingleLine (((firsts.zip seconds).zip thirds).zipIdx.flatMap f) := by
  intro d hd
  obtain ⟨⟨⟨⟨x, y⟩, z⟩, i⟩, hmem, hd⟩ := List.mem_flatMap.1 hd
  obtain ⟨hpair, hz⟩ := List.of_mem_zip (List.fst_mem_of_mem_zipIdx hmem)
  obtain ⟨hx, hy⟩ := List.of_mem_zip hpair
  exact hf x y z i (h₁ x hx) (h₂ y hy) (h₃ z hz) d hd

theorem allSingleLine_spacing {what : String} {b : Bounds} (hc : IsLine channel)
    (hwhat : IsLine what) : AllSingleLine (spacingDiagnostics channel what b events) := by
  intro d hd
  obtain ⟨⟨⟨previous, current⟩, i⟩, -, hp⟩ := List.mem_filterMap.1 hd
  dsimp only at hp
  split at hp
  · cases hp
  · cases hp
    simp [Diagnostic.SingleLine, Diagnostic.texts, hc, hwhat]

theorem allSingleLine_counts {tallies : List Tally} (hc : IsLine channel)
    (ht : ∀ t ∈ tallies, IsLine t.label) : AllSingleLine (countDiagnostics channel tallies) := by
  intro d hd
  cases tallies with
  | nil => cases hd
  | cons reference others =>
    obtain ⟨t, hmem, rfl⟩ := List.mem_map.1 hd
    have hlabel : IsLine t.label := ht t (List.mem_cons_of_mem _ (List.mem_filter.1 hmem).1)
    simp [Diagnostic.SingleLine, Diagnostic.texts, hc, hlabel, ht reference List.mem_cons_self]

theorem allSingleLine_skipped {check : String} (hc : IsLine channel) (hcheck : IsLine check) :
    AllSingleLine [.skipped channel check] := by
  simp [AllSingleLine, Diagnostic.SingleLine, Diagnostic.texts, hc, hcheck]

/-- Different numbers of events, and the check that is left out because of them. -/
theorem allSingleLine_uneven {tallies : List Tally} {check : String} (hc : IsLine channel)
    (ht : ∀ t ∈ tallies, IsLine t.label) (hcheck : IsLine check) :
    AllSingleLine (countDiagnostics channel tallies ++ [.skipped channel check]) := by
  apply AllSingleLine.append
  · exact allSingleLine_counts hc ht
  · exact allSingleLine_skipped hc hcheck

theorem allSingleLine_missing {what : String} (h : IsLine what) :
    AllSingleLine [.missing what] := by
  simp [AllSingleLine, Diagnostic.SingleLine, Diagnostic.texts, h]

end Violations

namespace Evaluation

variable {log sents receiveds echoes : List Event} {channel : String} {b : Bounds}

namespace Can

theorem allSingleLine_channelDiagnostics (hc : IsLine channel) (hs : SingleLines sents)
    (hr : SingleLines receiveds) :
    AllSingleLine (channelDiagnostics b channel sents receiveds) := by
  have hpayload : AllSingleLine (payloadDiagnostics channel sents receiveds) := by
    refine allSingleLine_pairs hs hr fun s r i d hs' hr' hd => ?_
    dsimp only at hd
    split at hd
    · cases hd
    · cases hd
      simp [Diagnostic.SingleLine, Diagnostic.texts, hc, hs', hr']
  have hperiod : AllSingleLine (periodDiagnostics b channel receiveds) := by
    unfold periodDiagnostics
    split
    · simp [AllSingleLine, Diagnostic.SingleLine, Diagnostic.texts, hc]
    · exact allSingleLine_spacing hc (by decide)
  unfold channelDiagnostics
  dsimp only
  split
  · exact hpayload.append hperiod
  · exact allSingleLine_uneven hc (by simp +decide) (by decide)

theorem allSingleLine_findings (h : SingleLines log) :
    AllSingleLine (findings b log).diagnostics := by
  apply allSingleLine_channels
  · intro events hevents
    simp only [List.mem_cons, List.not_mem_nil, or_false] at hevents
    rcases hevents with rfl | rfl
    · exact h.filter _
    · exact h.filter _
  · intro c hc
    exact allSingleLine_channelDiagnostics hc ((h.filter _).filter _) ((h.filter _).filter _)

end Can

namespace Lin

theorem allSingleLine_channelDiagnostics (hc : IsLine channel) (hs : SingleLines sents)
    (hr : SingleLines receiveds) :
    AllSingleLine (channelDiagnostics b channel sents receiveds) := by
  have hframe : AllSingleLine (frameDiagnostics channel sents receiveds) := by
    refine allSingleLine_pairs hs hr fun s r i d hs' hr' hd => ?_
    dsimp only at hd
    split at hd
    · cases hd
    · cases hd
      simp [Diagnostic.SingleLine, Diagnostic.texts, hc, hs', hr']
  unfold channelDiagnostics
  dsimp only
  split
  · exact hframe.append (allSingleLine_spacing hc (by decide))
  · exact allSingleLine_uneven hc (by simp +decide) (by decide)

theorem allSingleLine_findings (h : SingleLines log) :
    AllSingleLine (findings b log).diagnostics := by
  have hmissing : AllSingleLine (missingDiagnostics (sent log) (received log)) := by
    unfold missingDiagnostics
    apply AllSingleLine.append
    · split
      · exact allSingleLine_missing (by decide)
      · exact List.forall_mem_nil _
    · split
      · exact allSingleLine_missing (by decide)
      · exact List.forall_mem_nil _
  unfold findings
  dsimp only
  split
  · refine hmissing.append (allSingleLine_channels ?_ fun c hc => ?_)
    · intro events hevents
      simp only [List.mem_cons, List.not_mem_nil, or_false] at hevents
      rcases hevents with rfl | rfl
      · exact h.filter _
      · exact h.filter _
    · exact allSingleLine_channelDiagnostics hc ((h.filter _).filter _) ((h.filter _).filter _)
  · exact hmissing

end Lin

namespace Uart

theorem allSingleLine_mismatch {i : Nat} {s r : Event} {receiver : String} (hc : IsLine channel)
    (hs : IsLine s.payload) (hreceiver : IsLine receiver) (hr : IsLine r.payload) :
    AllSingleLine (mismatch channel i s receiver r) := by
  unfold mismatch
  split
  · exact List.forall_mem_nil _
  · simp [AllSingleLine, Diagnostic.SingleLine, Diagnostic.texts, hc, hs, hreceiver, hr]

theorem allSingleLine_channelDiagnostics {spacing : Option Bounds} (hc : IsLine channel)
    (hs : SingleLines sents) (hr : SingleLines receiveds) (he : SingleLines echoes) :
    AllSingleLine (channelDiagnostics spacing channel sents receiveds echoes) := by
  have hcharacter : AllSingleLine (characterDiagnostics channel sents receiveds echoes) := by
    refine allSingleLine_triples hs hr he fun s r e i hs' hr' he' => ?_
    apply AllSingleLine.append
    · exact allSingleLine_mismatch hc hs' (by decide) hr'
    · exact allSingleLine_mismatch hc hs' (by decide) he'
  unfold channelDiagnostics
  dsimp only
  split
  · apply hcharacter.append
    cases spacing with
    | none => exact List.forall_mem_nil _
    | some bounds => exact allSingleLine_spacing hc (by decide)
  · exact allSingleLine_uneven hc (by simp +decide) (by decide)

theorem allSingleLine_findings {spacing : Option Bounds} (h : SingleLines log) :
    AllSingleLine (findings spacing log).diagnostics := by
  unfold findings
  dsimp only
  split
  · exact allSingleLine_missing (by decide)
  · apply allSingleLine_channels
    · intro events hevents
      simp only [List.mem_cons, List.not_mem_nil, or_false] at hevents
      rcases hevents with rfl | rfl | rfl
      · exact h.filter _
      · exact h.filter _
      · exact h.filter _
    · intro c hc
      exact allSingleLine_channelDiagnostics hc ((h.filter _).filter _) ((h.filter _).filter _)
        ((h.filter _).filter _)

end Uart

namespace Gpio

theorem allSingleLine_orderDiagnostics {toggled ups downs : List Event} (ht : SingleLines toggled)
    (hu : SingleLines ups) (hd : SingleLines downs) :
    AllSingleLine (orderDiagnostics toggled ups downs) := by
  have hpin : ∀ {pair : PinPair} {left right : Event} {i : Nat}, IsLine left.payload →
      IsLine right.payload → AllSingleLine (pinMismatch pair (pin left) (pin right) i) := by
    intro pair left right i hleft hright
    unfold pinMismatch
    split
    · exact List.forall_mem_nil _
    · simp [AllSingleLine, Diagnostic.SingleLine, Diagnostic.texts, pin,
        Event.isLine_channel hleft, Event.isLine_channel hright]
  refine allSingleLine_triples ht hu hd fun t u v i ht' hu' hv' => ?_
  exact ((hpin hu' hv').append (hpin hu' ht')).append (hpin hv' ht')

theorem allSingleLine_findings (h : SingleLines log) :
    AllSingleLine (findings b log).diagnostics := by
  by_cases htoggles : toggles log = []
  · rw [findings, if_pos (by simp [htoggles])]
    exact allSingleLine_missing (by decide)
  · rw [diagnostics_findings htoggles]
    refine ((allSingleLine_counts (by decide) (by simp +decide [tallies])).append
      (allSingleLine_spacing (by decide) (by decide))).append ?_
    split
    · exact allSingleLine_orderDiagnostics (h.filter _) (h.filter _) (h.filter _)
    · exact allSingleLine_skipped (by decide) (by decide)

end Gpio

/-- **No payload breaks the line of a violation.** -/
theorem isLine_diagnostics (timing : TimingSettings) (s : Subsystem) (h : SingleLines log) :
    ∀ d ∈ (ofLog timing s log).diagnostics, IsLine d.message := by
  intro d hd
  have hall : AllSingleLine (findingsOf timing s log).diagnostics := by
    cases s with
    | gpio => exact Gpio.allSingleLine_findings h
    | uart => exact Uart.allSingleLine_findings h
    | can => exact Can.allSingleLine_findings h
    | lin => exact Lin.allSingleLine_findings h
  exact (hall d hd).message

end Evaluation

/-! ## Events in a transcript -/

namespace Line

/-- What is read from a line without a line end has none. -/
theorem isLine_payload_of_parse {line : String} {e : Event} (hline : IsLine line)
    (h : parse line = .ok (.event e)) : IsLine e.payload := by
  obtain ⟨-, p, hparts, -, -, -, hpayload⟩ := parse_eq_event_iff.1 h
  obtain ⟨time, level, device, payload, hcut, hof⟩ := parts?_eq_some_iff.1 hparts
  obtain ⟨front, back, hwhole, -⟩ := hcut.cut
  intro hmem
  rw [hpayload, String.toList_ofList, hof.payload] at hmem
  apply hline
  rw [hwhole]
  exact List.mem_append_left _ (List.mem_append_right _ hmem)

/-- Blanks in front of a line belong to none of its parts. -/
theorem parts?_blanks_append {lead cs : List Char} (h : ∀ c ∈ lead, Text.isBlank c = true) :
    parts? (lead ++ cs) = parts? cs := by
  have htrim : Text.trimStart (lead ++ cs) = Text.trimStart cs :=
    List.dropWhile_append_of_pos h
  simp only [parts?, Text.nextField, htrim]

/-- **An event that is set in is read like one that is not.** -/
theorem parse_indented {e : Event} (h : e.Legible) : parse ("  " ++ e.wire) = .ok (.event e) := by
  have hlead : ∀ c ∈ "  ".toList, Text.isBlank c = true := by
    intro c hc
    rw [List.eq_of_mem_replicate (n := 2) hc]
    rfl
  have hbanner : isBanner ("  ".toList ++ e.wire.toList) = false := rfl
  obtain ⟨-, hread⟩ := parse_eq_event_iff.1 (parse_wire h)
  rw [parse_eq_event_iff, String.toList_append, parts?_blanks_append hlead]
  exact ⟨hbanner, hread⟩

end Line

theorem Event.Legible.isLine_wire {e : Event} (h : e.Legible) (hpayload : IsLine e.payload) :
    IsLine e.wire := by
  have hplain : ∀ {text : String}, (∀ c ∈ text.toList, Text.isBlank c = false) → IsLine text := by
    intro text htext hmem
    cases htext _ hmem
  simp +decide [Event.wire, hplain h.level_blank, hplain h.device_blank, hpayload]

/-- The event was read from a single line. -/
def Event.WasRead (e : Event) : Prop :=
  ∃ line, IsLine line ∧ Line.parse line = .ok (.event e)

namespace Event.WasRead

variable {e : Event}

theorem legible (h : e.WasRead) : e.Legible := by
  obtain ⟨line, -, hparse⟩ := h
  exact Line.legible_of_parse hparse

theorem isLine_payload (h : e.WasRead) : IsLine e.payload := by
  obtain ⟨line, hline, hparse⟩ := h
  exact Line.isLine_payload_of_parse hline hparse

theorem isLine_wire (h : e.WasRead) : IsLine e.wire :=
  h.legible.isLine_wire h.isLine_payload

end Event.WasRead

namespace Transcript

/-- A section of texts that are set in. -/
def Section.indented (heading : String) (texts : List String) : Section :=
  ⟨heading, texts.map ("  " ++ ·)⟩

/-- A text that can be a heading. -/
def IsHeading (text : String) : Prop :=
  isIndented text = false ∧ IsLine text

instance (text : String) : Decidable (IsHeading text) :=
  inferInstanceAs (Decidable (_ ∧ _))

theorem Section.setIn_indented {heading : String} {texts : List String} (h : IsHeading heading)
    (htexts : ∀ t ∈ texts, IsLine t) : (Section.indented heading texts).SetIn := by
  refine ⟨h.1, ?_, List.forall_mem_cons.2 ⟨h.2, ?_⟩⟩
  · intro line hline
    obtain ⟨t, -, rfl⟩ := List.mem_map.1 hline
    exact isIndented_append t
  · intro line hline
    obtain ⟨t, ht, rfl⟩ := List.mem_map.1 hline
    exact Text.isLine_append.2 ⟨by decide, htexts t ht⟩

end Transcript

open Transcript

/-- The sections of the transcript of an evaluation. -/
def Evaluation.sections (e : Evaluation) : List Section :=
  [.indented (e.subsystem.label ++ " Errors:") (e.diagnostics.map Diagnostic.message),
    .indented (e.subsystem.label ++ " serial errors during test:") (e.serialErrors.map Event.wire),
    .indented (e.subsystem.label ++ " Log:") (e.log.map Event.wire)]

theorem Evaluation.transcript_eq (e : Evaluation) :
    e.transcript = Text.joined "\n" (e.sections.flatMap Section.lines) := by
  simp [transcript, sections, Section.lines, Section.indented, indented]

/-- The one section of the transcript of two identities. -/
def Identity.sections (i : Identity) : List Section :=
  [.indented "Hardware Information Log:" (i.log.map Event.wire)]

theorem Identity.transcript_eq (i : Identity) :
    i.transcript = Text.joined "\n" (i.sections.flatMap Section.lines) := by
  simp [transcript, sections, Section.lines, Section.indented, Function.comp_def]

/-- Events come back from the lines that they were written to. -/
theorem map_parse_indented {events : List Event} (h : ∀ e ∈ events, e.WasRead) :
    ((events.map Event.wire).map ("  " ++ ·)).map Line.parse = events.map (.ok <| .event ·) := by
  rw [List.map_map, List.map_map]
  apply List.map_congr_left
  intro e he
  simp only [Function.comp_apply, Line.parse_indented (h e he).legible]

theorem isLine_of_mem_wires {events : List Event} (h : ∀ e ∈ events, e.WasRead) :
    ∀ t ∈ events.map Event.wire, IsLine t := by
  intro t ht
  obtain ⟨e, he, rfl⟩ := List.mem_map.1 ht
  exact (h e he).isLine_wire

theorem Evaluation.setIn_sections {log : List Event} (h : ∀ e ∈ log, e.WasRead)
    (timing : TimingSettings) (s : Subsystem) :
    ∀ t ∈ (ofLog timing s log).sections, t.SetIn := by
  have hheading : ∀ s : Subsystem, IsHeading (s.label ++ " Errors:") ∧
      IsHeading (s.label ++ " serial errors during test:") ∧ IsHeading (s.label ++ " Log:") := by
    intro s
    cases s <;> decide
  obtain ⟨hviolations, herrors, hevents⟩ := hheading s
  simp only [sections, List.forall_mem_cons]
  refine ⟨Section.setIn_indented hviolations ?_, Section.setIn_indented herrors ?_,
    Section.setIn_indented hevents ?_, List.forall_mem_nil _⟩
  · intro t ht
    obtain ⟨d, hd, rfl⟩ := List.mem_map.1 ht
    exact isLine_diagnostics timing s (fun e he => (h e he).isLine_payload) d hd
  · apply isLine_of_mem_wires
    intro e he
    exact h e (List.mem_filter.1 he).1
  · exact isLine_of_mem_wires h

theorem Identity.setIn_sections {i : Identity} (h : ∀ e ∈ i.log, e.WasRead) :
    ∀ t ∈ i.sections, t.SetIn := by
  simp only [sections, List.forall_mem_singleton]
  exact Section.setIn_indented (by decide) (isLine_of_mem_wires h)

/-- **Transcripts lose nothing and can be read back.** Let every event of a log be read from a
single line. If the log is evaluated, in whatever subsystem and within whatever bounds, then the
lines of the transcript that are not set in are its three headings, whatever the payloads look like.
Under the first are the violations, in order; the lines under the second read as the errors that
devices logged, and those under the third as the events of the log. If the log identifies the
boards, then of that transcript there is one heading, and the lines under it read as the log. -/
theorem transcripts_lose_nothing (log : List Event)
    (hlog : ∀ e ∈ log, ∃ line, '\n' ∉ line.toList ∧ Line.parse line = .ok (.event e)) :
    (∀ (timing : TimingSettings) (s : Subsystem),
      let lines := Text.lines (Evaluation.ofLog timing s log).transcript
      lines.filter (!isIndented ·) =
          [s.label ++ " Errors:", s.label ++ " serial errors during test:", s.label ++ " Log:"] ∧
        ∃ violations errors events,
          Transcript.sections lines = [⟨s.label ++ " Errors:", violations⟩,
            ⟨s.label ++ " serial errors during test:", errors⟩, ⟨s.label ++ " Log:", events⟩] ∧
          violations =
            (Evaluation.ofLog timing s log).diagnostics.map (fun d => "  " ++ d.message) ∧
          errors.map Line.parse = (log.filter (·.level = .err)).map (.ok <| .event ·) ∧
          events.map Line.parse = log.map (.ok <| .event ·)) ∧
    (∀ i, Identity.ofLog log = .ok i →
      let lines := Text.lines i.transcript
      lines.filter (!isIndented ·) = ["Hardware Information Log:"] ∧
        ∃ events, Transcript.sections lines = [⟨"Hardware Information Log:", events⟩] ∧
          events.map Line.parse = log.map (.ok <| .event ·)) := by
  have hread : ∀ e ∈ log, e.WasRead := hlog
  constructor
  · intro timing s
    obtain ⟨hheadings, hsections⟩ := lines_joined_sections (by simp [Evaluation.sections])
      (Evaluation.setIn_sections hread timing s)
    have herrors : ∀ e ∈ log.filter (·.level = .err), e.WasRead :=
      fun e he => hread e (List.mem_filter.1 he).1
    dsimp only
    rw [Evaluation.transcript_eq, hheadings, hsections]
    refine ⟨rfl, _, _, _, rfl, List.map_map, ?_, map_parse_indented hread⟩
    exact map_parse_indented herrors
  · intro i hi
    obtain ⟨-, rfl, -⟩ := Identity.ofLog_eq_ok_iff.1 hi
    obtain ⟨hheadings, hsections⟩ := lines_joined_sections (by simp [Identity.sections])
      (Identity.setIn_sections hread)
    dsimp only
    rw [Identity.transcript_eq, hheadings, hsections]
    exact ⟨rfl, _, rfl, map_parse_indented hread⟩

/-- Payloads that look like headings, a violation and a banner. -/
def deceptiveLog : List Event :=
  [⟨3, .inf, "SUT", "id: LIN Log:"⟩, ⟨3, .err, "tester", "id: *** LIN Errors: ***"⟩,
    ⟨5, .err, "sut", "No messages sent by SUT"⟩, ⟨7, .inf, "sut", "serial@40004800 sending:  a"⟩,
    ⟨9, .inf, "tester", "serial@40004800 received b"⟩, ⟨9, .inf, "tester", "[9] <inf> sut: x"⟩]

/-- They deceive nobody. -/
theorem deceptiveLog_is_read_back :
    (∀ e ∈ deceptiveLog, ∃ line, '\n' ∉ line.toList ∧ Line.parse line = .ok (.event e)) ∧
    (∃ violations errors events,
      Transcript.sections (Text.lines (Evaluation.ofLog {} .lin deceptiveLog).transcript) =
        [⟨"LIN Errors:", violations⟩, ⟨"LIN serial errors during test:", errors⟩,
          ⟨"LIN Log:", events⟩] ∧
      violations = ["  serial@40004800: Send message 'serial@40004800 sending:  a' does not match "
        ++ "received message 'serial@40004800 received b' at index 0 (a != b)"] ∧
      events.map Line.parse = deceptiveLog.map (.ok <| .event ·)) ∧
    ∃ i, Identity.ofLog deceptiveLog = .ok i ∧
      (Text.lines i.transcript).filter (!isIndented ·) = ["Hardware Information Log:"] := by
  have hread : ∀ e ∈ deceptiveLog, ∃ line, '\n' ∉ line.toList ∧
      Line.parse line = .ok (.event e) := by
    intro e he
    refine ⟨e.wire, ?_⟩
    revert e
    decide +kernel
  obtain ⟨heval, hidentity⟩ := transcripts_lose_nothing deceptiveLog hread
  obtain ⟨-, violations, errors, events, hsections, hviolations, -, hevents⟩ := heval {} .lin
  refine ⟨hread, ⟨violations, errors, events, hsections, hviolations.trans ?_, hevents⟩, ?_⟩
  · decide +kernel
  · have htold : Identity.ofLog deceptiveLog =
        .ok ⟨deceptiveLog, ⟨3, .inf, "SUT", "id: LIN Log:"⟩,
          ⟨3, .err, "tester", "id: *** LIN Errors: ***"⟩⟩ := by decide +kernel
    exact ⟨_, htold, (hidentity _ htold).1⟩

end BoardBench
