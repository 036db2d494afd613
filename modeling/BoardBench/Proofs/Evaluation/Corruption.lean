import BoardBench.Proofs.Evaluation.Agreement
import BoardBench.Proofs.Evaluation.Reports

/-!
# Corruption — a reception that went wrong is localised

In three of the tests a board receives what the other one sent, and the evaluation holds each
`Receipt` against it. If one event of such a track is garbled in a log in which nothing was found,
the report is one line, and it says where: **on which channel, at which position among what was
received there, and what stood against what** (`corrupted_reception_is_localised`).

There are three positions that could be meant: in the log, in the track, and on the channel. It is
the last one, since a check never looks further than one channel. So the proof goes from the inside
to the outside: a check that goes through two sequences objects at the changed place only
(`flatMap_zipIdx_of_forall_ne`), and the channel of the event is the only one with something to say
(`flatMap_of_forall_ne`).

The position that is reported is determined by the events of the track that stand before the changed
one and are on its channel, and the statement says so: it counts them in the log, instead of naming
a number of which nothing else is known. The event that takes the place of the other has the same
time and the same channel, as it is the datum that went wrong. One with another channel would be a
loss here and an invention there, which is reported differently.
-/

set_option autoImplicit false

namespace BoardBench

/-! ## Times -/

/-- Only the times of events matter to how far they are apart. -/
theorem isChain_apart_congr {b : Bounds} {front back : List Event} {e e' : Event}
    (ht : e'.timeMs = e.timeMs) :
    (front ++ e' :: back).IsChain b.Apart ↔ (front ++ e :: back).IsChain b.Apart := by
  have htimes : ∀ es : List Event, es.IsChain b.Apart ↔
      (es.map Event.timeMs).IsChain fun t u => b.contains (elapsed t u) = true := by
    intro es
    rw [List.isChain_map]
    rfl
  rw [htimes, htimes]
  simp [ht]

/-! ## One channel -/

section Garbled

variable {γ : Type} {f : Event → γ} {sents front back : List Event} {s e e' : Event}

/-- A check that compares two sequences objects to the one entry that was changed. -/
theorem filterMap_zip_garbled [DecidableEq γ] {say : Nat → Event → Event → Diagnostic}
    {check : (Event × Event) × Nat → Option Diagnostic}
    (hcheck : ∀ x y i, check ((x, y), i) = if f x = f y then none else some (say i x y))
    (hsame : sents.map f = (front ++ e :: back).map f) (hs : sents[front.length]? = some s)
    (hd : f e' ≠ f e) :
    (sents.zip (front ++ e' :: back)).zipIdx.filterMap check = [say front.length s e'] := by
  have hse : f s = f e := eq_of_map_eq hsame hs (getElem?_middle front back e)
  have hat : (sents.zip (front ++ e' :: back))[front.length]? = some (s, e') :=
    List.getElem?_zip_eq_some.2 ⟨hs, getElem?_middle front back e'⟩
  rw [List.filterMap_eq_flatMap_toList, flatMap_zipIdx_of_forall_ne hat]
  · simp [hcheck, hse, Ne.symm hd]
  · intro j p hp hj
    obtain ⟨hx, hy⟩ := List.getElem?_zip_eq_some.1 hp
    rw [getElem?_append_cons_of_ne e hj] at hy
    simp [hcheck, eq_of_map_eq hsame hx hy]

theorem length_eq_of_garbled (hsame : sents.map f = (front ++ e :: back).map f) :
    sents.length = (front ++ e' :: back).length := by
  rw [length_eq_of_map_eq hsame]
  simp

end Garbled

namespace Evaluation

section Channel

variable {c : String} {sents echoes front back : List Event} {s e e' : Event}

/-- What is reported of a channel on which one received frame was garbled. -/
theorem Can.channelDiagnostics_garbled {b : Bounds}
    (h : Can.channelDiagnostics b c sents (front ++ e :: back) = [])
    (hs : sents[front.length]? = some s) (hd : e'.payload ≠ e.payload)
    (ht : e'.timeMs = e.timeMs) :
    Can.channelDiagnostics b c sents (front ++ e' :: back) = [.payload c front.length s e'] := by
  obtain ⟨hsame, hmany, hspaced⟩ := Can.channelDiagnostics_eq_nil_iff.1 h
  have hpayloads : Can.payloadDiagnostics c sents (front ++ e' :: back) =
      [.payload c front.length s e'] :=
    filterMap_zip_garbled (fun x y i => rfl) hsame hs hd
  have hperiod : Can.periodDiagnostics b c (front ++ e' :: back) = [] := by
    apply Can.periodDiagnostics_eq_nil_iff.2
    exact ⟨by simpa using hmany, (isChain_apart_congr ht).2 hspaced⟩
  rw [Can.channelDiagnostics_of_eq (length_eq_of_garbled hsame), hpayloads, hperiod,
    List.append_nil]

theorem Lin.channelDiagnostics_garbled {b : Bounds}
    (h : Lin.channelDiagnostics b c sents (front ++ e :: back) = [])
    (hs : sents[front.length]? = some s) (hd : e'.lastChar ≠ e.lastChar)
    (ht : e'.timeMs = e.timeMs) :
    Lin.channelDiagnostics b c sents (front ++ e' :: back) = [.frame c front.length s e'] := by
  obtain ⟨hsame, hspaced⟩ := Lin.channelDiagnostics_eq_nil_iff.1 h
  have hframes : Lin.frameDiagnostics c sents (front ++ e' :: back) =
      [.frame c front.length s e'] :=
    filterMap_zip_garbled (fun x y i => rfl) hsame hs hd
  have hperiod : spacingDiagnostics c "frame" b (front ++ e' :: back) = [] :=
    spacingDiagnostics_eq_nil_iff.2 ((isChain_apart_congr ht).2 hspaced)
  rw [Lin.channelDiagnostics_of_eq (length_eq_of_garbled hsame), hframes, hperiod,
    List.append_nil]

theorem Uart.channelDiagnostics_garbled {spacing : Option Bounds}
    (h : Uart.channelDiagnostics spacing c sents (front ++ e :: back) echoes = [])
    (hs : sents[front.length]? = some s) (hd : e'.lastChar ≠ e.lastChar) :
    Uart.channelDiagnostics spacing c sents (front ++ e' :: back) echoes =
      [.character c front.length s "SUT" e'] := by
  obtain ⟨hsame, hback, hspaced⟩ := Uart.channelDiagnostics_eq_nil_iff.1 h
  have hlen : sents.length = (front ++ e' :: back).length := length_eq_of_garbled hsame
  have hlen' : sents.length = echoes.length := length_eq_of_map_eq hback
  have hse : s.lastChar = e.lastChar := eq_of_map_eq hsame hs (getElem?_middle front back e)
  -- the echo of the character came back as it was sent
  obtain ⟨r, hr⟩ : ∃ r, echoes[front.length]? = some r := by
    simp [← hlen', hlen]
  have hsr : s.lastChar = r.lastChar := eq_of_map_eq hback hs hr
  have hcharacters : Uart.characterDiagnostics c sents (front ++ e' :: back) echoes =
      [.character c front.length s "SUT" e'] := by
    have hat : ((sents.zip (front ++ e' :: back)).zip echoes)[front.length]? =
        some ((s, e'), r) :=
      List.getElem?_zip_eq_some.2
        ⟨List.getElem?_zip_eq_some.2 ⟨hs, getElem?_middle front back e'⟩, hr⟩
    rw [Uart.characterDiagnostics, flatMap_zipIdx_of_forall_ne hat]
    · simp [Uart.mismatch, ← hsr, hse, Ne.symm hd]
    · intro j p hp hj
      obtain ⟨hxy, hz⟩ := List.getElem?_zip_eq_some.1 hp
      obtain ⟨hx, hy⟩ := List.getElem?_zip_eq_some.1 hxy
      rw [getElem?_append_cons_of_ne e hj] at hy
      simp [Uart.mismatch, ← eq_of_map_eq hsame hx hy, ← eq_of_map_eq hback hx hz]
  rw [Uart.channelDiagnostics_eq, if_pos ⟨hlen.symm, hlen'.symm⟩, hcharacters]
  cases spacing with
  | none => rfl
  | some b =>
    have hpace : spacingDiagnostics c "send" b sents = [] :=
      spacingDiagnostics_eq_nil_iff.2 (hspaced b rfl)
    simp [hpace]

end Channel

end Evaluation

/-! ## The logs -/

namespace Track

variable {k : Track} {e e' : Event} {before after : List Event}

/-- A report stands among those of its channel behind the ones that were there before it. -/
theorem reportsOn_middle (h : k.Takes e) (before after : List Event) :
    k.reportsOn (e.channel k.subsystem.width) (before ++ e :: after) =
      k.reportsOn (e.channel k.subsystem.width) before ++
        e :: k.reportsOn (e.channel k.subsystem.width) after := by
  have hsplit : before ++ e :: after = before ++ ([e] ++ after) := rfl
  rw [hsplit, reportsOn_append, reportsOn_append, reportsOn_of_takes h]
  rfl

/-- On another channel it does not count. -/
theorem reportsOn_of_channel_ne {c : String} (hc : e.channel k.subsystem.width ≠ c) :
    k.reportsOn c [e] = [] := by
  rw [reportsOn, onChannel, List.filter_eq_nil_iff]
  intro x hx
  rw [List.mem_singleton.1 (List.mem_filter.1 hx).1]
  simpa using hc

/-- Another event in the same place changes nothing, where neither of the two counts. -/
theorem reportsOn_replace {c : String} (h : k.reportsOn c [e] = []) (h' : k.reportsOn c [e'] = [])
    (before after : List Event) :
    k.reportsOn c (before ++ e' :: after) = k.reportsOn c (before ++ e :: after) := by
  have hsplit : ∀ x, before ++ x :: after = before ++ ([x] ++ after) := fun x => rfl
  rw [hsplit, hsplit]
  simp only [reportsOn_append, h, h']

/-- … and it changes nothing in the channels, where both count alike and are on one channel. -/
theorem map_channel_reports {width : Nat} (h : k.Takes e' ↔ k.Takes e)
    (hc : e'.channel width = e.channel width) (before after : List Event) :
    (k.reports (before ++ e' :: after)).map (Event.channel width) =
      (k.reports (before ++ e :: after)).map (Event.channel width) := by
  have htakes : ∀ x, (x.isFrom k.role && k.wants x) = true ↔ k.Takes x := by
    intro x
    rw [Bool.and_eq_true]
    rfl
  rw [reports, reports, selected, selected, List.filter_append, List.filter_append,
    List.filter_cons, List.filter_cons]
  by_cases hx : k.Takes e
  · simp [htakes, h, hx, hc]
  · simp [htakes, h, hx]

end Track

/-- The receptions that are held against what was sent. -/
inductive Receipt where
  | can
  | lin
  | uart
deriving Repr, DecidableEq

namespace Receipt

/-- What was received. -/
def received : Receipt → Track
  | .can => .canReceived
  | .lin => .linReceived
  | .uart => .uartReceived

/-- What it is held against. -/
def sent : Receipt → Track
  | .can => .canSent
  | .lin => .linSent
  | .uart => .uartSent

def subsystem (r : Receipt) : Subsystem :=
  r.received.subsystem

/-- The channel that an event is on. -/
abbrev channel (r : Receipt) (e : Event) : String :=
  e.channel r.subsystem.width

/-- The position of an event among those of the reception on its channel, by what stands before it
in the log. -/
def position (r : Receipt) (before : List Event) (e : Event) : Nat :=
  (r.received.reportsOn (r.channel e) before).length

/-- The violation for an event that is not what was sent. -/
def mismatch : Receipt → String → Nat → Event → Event → Diagnostic
  | .can, c, i, s, e => .payload c i s e
  | .lin, c, i, s, e => .frame c i s e
  | .uart, c, i, s, e => .character c i s "SUT" e

/-- The line for it: where it is, and what was expected there. -/
def wording (c : String) (i : Nat) (s e : Event) (expected actual : String) : Receipt → String
  | .can => c ++ ": Payload mismatch at index " ++ Text.decimal i ++ ". Send " ++ expected
      ++ ", Received " ++ actual
  | .lin => c ++ ": Send message '" ++ s.payload ++ "' does not match received message '"
      ++ e.payload ++ "' at index " ++ Text.decimal i ++ " (" ++ expected ++ " != " ++ actual ++ ")"
  | .uart => c ++ ": Character at index " ++ Text.decimal i ++ " sent by tester (" ++ expected
      ++ ") does not match character received by " ++ "SUT" ++ " (" ++ actual ++ ")"

variable {timing : TimingSettings} {r : Receipt} {c : String} {e e' : Event}
  {before after log : List Event}

theorem message_mismatch (r : Receipt) (c : String) (i : Nat) (s e : Event) :
    (r.mismatch c i s e).message =
      r.wording c i s e (r.subsystem.compared s) (r.subsystem.compared e) := by
  cases r <;> rfl

/-! ### Channel by channel -/

/-- The tracks of the test, in the order in which the evaluation goes through them. -/
def tracks : Receipt → List Track
  | .can => [.canReceived, .canSent]
  | .lin => [.linSent, .linReceived]
  | .uart => [.uartSent, .uartEchoed, .uartReceived]

/-- What is not the reception comes from the other board. -/
theorem role_of_mem_tracks {k : Track} (h : k ∈ r.tracks) :
    k = r.received ∨ k.role ≠ r.received.role := by
  revert h
  cases r <;> cases k <;> simp [tracks, received, Track.role]

/-- The channels that the evaluation goes through. -/
def occurring (log : List Event) (r : Receipt) : List String :=
  channels r.subsystem.width (r.tracks.map (Track.reports · log))

/-- What it says of one of them. -/
def reportOn (timing : TimingSettings) (log : List Event) (c : String) (r : Receipt) :
    List Diagnostic :=
  let sents := r.sent.reportsOn c log
  let receiveds := r.received.reportsOn c log
  match r with
  | .can => Evaluation.Can.channelDiagnostics timing.can c sents receiveds
  | .lin => Evaluation.Lin.channelDiagnostics timing.lin c sents receiveds
  | .uart => Evaluation.Uart.channelDiagnostics timing.uart c sents receiveds
      (Track.uartEchoed.reportsOn c log)

theorem diagnostics_eq (hs : r.sent.reports log ≠ []) (hr : r.received.reports log ≠ []) :
    (Evaluation.ofLog timing r.subsystem log).diagnostics =
      (r.occurring log).flatMap fun c => r.reportOn timing log c := by
  cases r with
  | can => rfl
  | lin => exact Evaluation.Lin.diagnostics_findings_of_present hs hr
  | uart => exact Evaluation.Uart.diagnostics_findings_of_present hs

theorem nodup_occurring (r : Receipt) (log : List Event) : (r.occurring log).Nodup :=
  nodup_channels _ _

theorem mem_occurring (h : e ∈ r.received.reports log) : r.channel e ∈ r.occurring log := by
  have hreceived : r.received ∈ r.tracks := by
    cases r <;> simp [tracks, received]
  exact mem_channels.2 ⟨_, List.mem_map_of_mem hreceived, e, h, rfl⟩

/-! ### Another event in the same place -/

/-- One event of a reception stands for another one on the same channel. -/
structure Replaces (r : Receipt) (e e' : Event) : Prop where
  takes : r.received.Takes e
  takes_new : r.received.Takes e'
  channel_eq : r.channel e' = r.channel e

namespace Replaces

variable {k : Track}

theorem takes_iff (h : r.Replaces e e') (hk : k = r.received ∨ k.role ≠ r.received.role) :
    k.Takes e' ↔ k.Takes e := by
  rcases hk with rfl | hrole
  · exact iff_of_true h.takes_new h.takes
  · exact iff_of_false (Track.not_takes_of_role_ne h.takes_new hrole)
      (Track.not_takes_of_role_ne h.takes hrole)

/-- What the other board reports stays. -/
theorem reportsOn_eq (h : r.Replaces e e') (hrole : k.role ≠ r.received.role) (c : String) :
    k.reportsOn c (before ++ e' :: after) = k.reportsOn c (before ++ e :: after) :=
  Track.reportsOn_replace
    (Track.reportsOn_of_not_takes (Track.not_takes_of_role_ne h.takes hrole) c)
    (Track.reportsOn_of_not_takes (Track.not_takes_of_role_ne h.takes_new hrole) c) before after

/-- On other channels everything stays. -/
theorem reportsOn_eq_of_ne (h : r.Replaces e e') (hk : k.subsystem = r.subsystem)
    (hc : c ≠ r.channel e) :
    k.reportsOn c (before ++ e' :: after) = k.reportsOn c (before ++ e :: after) := by
  apply Track.reportsOn_replace
  · apply Track.reportsOn_of_channel_ne
    rw [hk]
    exact Ne.symm hc
  · apply Track.reportsOn_of_channel_ne
    rw [hk]
    exact fun heq => hc (heq.symm.trans h.channel_eq)

theorem reportsOn_sent (h : r.Replaces e e') (c : String) :
    r.sent.reportsOn c (before ++ e' :: after) = r.sent.reportsOn c (before ++ e :: after) := by
  apply h.reportsOn_eq
  cases r <;> simp [sent, received, Track.role]

theorem reportOn_eq (h : r.Replaces e e') (hc : c ≠ r.channel e) :
    r.reportOn timing (before ++ e' :: after) c = r.reportOn timing (before ++ e :: after) c := by
  have hon : ∀ k : Track, k.subsystem = r.subsystem →
      k.reportsOn c (before ++ e' :: after) = k.reportsOn c (before ++ e :: after) := by
    intro k hk
    exact h.reportsOn_eq_of_ne hk hc
  have hsent : r.sent.subsystem = r.subsystem := by
    cases r <;> rfl
  unfold reportOn
  rw [hon r.sent hsent, hon r.received rfl]
  cases r with
  | can => rfl
  | lin => rfl
  | uart => rw [hon .uartEchoed rfl]

/-- The channels are the same ones, in the same order. -/
theorem occurring_eq (h : r.Replaces e e') (before after : List Event) :
    r.occurring (before ++ e' :: after) = r.occurring (before ++ e :: after) := by
  have hmap : r.tracks.map (fun k =>
        (k.reports (before ++ e' :: after)).map (Event.channel r.subsystem.width)) =
      r.tracks.map fun k =>
        (k.reports (before ++ e :: after)).map (Event.channel r.subsystem.width) := by
    apply List.map_congr_left
    intro k hk
    exact Track.map_channel_reports (h.takes_iff (role_of_mem_tracks hk)) h.channel_eq before after
  simp only [occurring, channels, List.map_flatten, List.map_map, Function.comp_def, hmap]

/-- On the channel of the event, it is all that is reported. -/
theorem reportOn_channel (h : r.Replaces e e') (ht : e'.timeMs = e.timeMs)
    (hd : r.subsystem.compared e' ≠ r.subsystem.compared e) {s : Event}
    (hs : (r.sent.reportsOn (r.channel e) (before ++ e :: after))[r.position before e]? = some s)
    (hclean : r.reportOn timing (before ++ e :: after) (r.channel e) = []) :
    r.reportOn timing (before ++ e' :: after) (r.channel e) =
      [r.mismatch (r.channel e) (r.position before e) s e'] := by
  have hold : r.received.reportsOn (r.channel e) (before ++ e :: after) =
      r.received.reportsOn (r.channel e) before ++
        e :: r.received.reportsOn (r.channel e) after :=
    Track.reportsOn_middle h.takes before after
  have hnew : r.received.reportsOn (r.channel e) (before ++ e' :: after) =
      r.received.reportsOn (r.channel e) before ++
        e' :: r.received.reportsOn (r.channel e) after := by
    rw [← h.channel_eq]
    exact Track.reportsOn_middle h.takes_new before after
  have hlast : e'.shownLast ≠ e.shownLast → e'.lastChar ≠ e.lastChar := by
    intro hshown heq
    apply hshown
    rw [Event.shownLast, Event.shownLast, heq]
  unfold reportOn at hclean ⊢
  rw [hold] at hclean
  rw [h.reportsOn_sent, hnew]
  -- the spacing is judged by the stamps, which the corruption keeps, so only the comparison can
  -- report
  cases r with
  | can => exact Evaluation.Can.channelDiagnostics_garbled hclean hs hd ht
  | lin => exact Evaluation.Lin.channelDiagnostics_garbled hclean hs (hlast hd) ht
  | uart =>
    have hrole : Track.uartEchoed.role ≠ Receipt.uart.received.role := by
      simp [received, Track.role]
    rw [h.reportsOn_eq hrole]
    exact Evaluation.Uart.channelDiagnostics_garbled hclean hs (hlast hd)

end Replaces

theorem getElem?_position (he : r.received.Takes e) (before after : List Event) :
    (r.received.reportsOn (r.channel e) (before ++ e :: after))[r.position before e]? = some e := by
  rw [channel, subsystem, Track.reportsOn_middle he]
  exact getElem?_middle _ _ e

/-- Where nothing is found, an event was sent that stands against the one received. -/
theorem exists_sent (he : r.received.Takes e)
    (hclean : (Evaluation.ofLog timing r.subsystem (before ++ e :: after)).diagnostics = []) :
    ∃ s, (r.sent.reportsOn (r.channel e) (before ++ e :: after))[r.position before e]? = some s ∧
      r.subsystem.compared s = r.subsystem.compared e := by
  have hsub : r.sent.subsystem = r.subsystem := by
    cases r <;> rfl
  have hsame := Track.compared_reportsOn hclean hsub rfl (r.channel e)
  have hat : ((r.received.reportsOn (r.channel e) (before ++ e :: after)).map
      r.subsystem.compared)[r.position before e]? = some (r.subsystem.compared e) := by
    rw [List.getElem?_map, getElem?_position he]
    rfl
  rw [← hsame, List.getElem?_map, Option.map_eq_some_iff] at hat
  exact hat

/-- An event on a channel is one of the events of its track. -/
theorem reports_ne_nil {k : Track} {i : Nat} (h : (k.reportsOn c log)[i]? = some e) :
    k.reports log ≠ [] := by
  apply List.ne_nil_of_mem
  exact (mem_onChannel.1 (List.mem_of_getElem? h)).1

end Receipt

namespace Evaluation

/-- **A garbled reception is reported in one line that says where it was.** Take a log in which an
evaluation finds nothing, and any event of a reception in it. Give that event another payload, which
is still taken for a report of the reception and on the same channel, but is not the same in what
the evaluation compares. Then there is one violation. It names the channel, the position of the
event among those of the reception on that channel, the event that was sent there, and the garbled
one; and its line shows what was there before, as it was sent, against what is there now. -/
theorem corrupted_reception_is_localised (timing : TimingSettings) (r : Receipt)
    (before after : List Event) (e : Event) (payload : String)
    (hclean : (ofLog timing r.subsystem (before ++ e :: after)).diagnostics = [])
    (he : r.received.Takes e) (hwants : r.received.wants { e with payload } = true)
    (hchannel : r.channel { e with payload } = r.channel e)
    (hdiffers : r.subsystem.compared { e with payload } ≠ r.subsystem.compared e) :
    (r.received.reportsOn (r.channel e) (before ++ e :: after))[r.position before e]? = some e ∧
    ∃ s, (r.sent.reportsOn (r.channel e) (before ++ e :: after))[r.position before e]? = some s ∧
      r.subsystem.compared s = r.subsystem.compared e ∧
      (ofLog timing r.subsystem (before ++ { e with payload } :: after)).diagnostics =
        [r.mismatch (r.channel e) (r.position before e) s { e with payload }] ∧
      (ofLog timing r.subsystem (before ++ { e with payload } :: after)).diagnostics.map
          Diagnostic.message =
        [r.wording (r.channel e) (r.position before e) s { e with payload }
          (r.subsystem.compared e) (r.subsystem.compared { e with payload })] := by
  have hat := Receipt.getElem?_position he before after
  obtain ⟨s, hs, hse⟩ := Receipt.exists_sent he hclean
  have h : r.Replaces e { e with payload } := ⟨he, ⟨he.1, hwants⟩, hchannel⟩
  -- nothing was reported of any channel before
  have hnone : ∀ c ∈ r.occurring (before ++ e :: after),
      r.reportOn timing (before ++ e :: after) c = [] := by
    rw [Receipt.diagnostics_eq (Receipt.reports_ne_nil hs) (Receipt.reports_ne_nil hat),
      List.flatMap_eq_nil_iff] at hclean
    exact hclean
  have hmem : r.channel e ∈ r.occurring (before ++ e :: after) := by
    apply Receipt.mem_occurring
    exact (mem_onChannel.1 (List.mem_of_getElem? hat)).1
  -- and now nothing but this is reported, of one channel
  have hs' : (r.sent.reportsOn (r.channel e) (before ++ { e with payload } :: after))[
      r.position before e]? = some s := by
    rw [h.reportsOn_sent]
    exact hs
  have hat' := Receipt.getElem?_position h.takes_new before after
  have hreport : (ofLog timing r.subsystem (before ++ { e with payload } :: after)).diagnostics =
      [r.mismatch (r.channel e) (r.position before e) s { e with payload }] := by
    rw [Receipt.diagnostics_eq (Receipt.reports_ne_nil hs') (Receipt.reports_ne_nil hat'),
      h.occurring_eq, flatMap_of_forall_ne (r.nodup_occurring _) hmem]
    · exact h.reportOn_channel rfl hdiffers hs (hnone _ hmem)
    · intro c hc hne
      rw [h.reportOn_eq hne]
      exact hnone c hc
  refine ⟨hat, s, hs, hse, hreport, ?_⟩
  rw [hreport, List.map_singleton, Receipt.message_mismatch, hse]

/-- Two controllers that send by turns. -/
def turns : List Event :=
  [⟨3, .inf, "sut", "can@40006400: 11"⟩, ⟨5, .inf, "tester", "can@40006400: 11"⟩,
    ⟨4, .inf, "sut", "can@40006800: 11"⟩, ⟨6, .inf, "tester", "can@40006800: 11"⟩,
    ⟨53, .inf, "sut", "can@40006400: 22"⟩, ⟨55, .inf, "tester", "can@40006400: 22"⟩,
    ⟨54, .inf, "sut", "can@40006800: 22"⟩]

/-- The eighth event of the log and the fourth frame that was received, but the second one on its
channel. -/
def fourth : Event :=
  ⟨56, .inf, "tester", "can@40006800: 22"⟩

theorem garbled_fourth_is_localised :
    (ofLog {} .can (turns ++ [fourth])).diagnostics = [] ∧
      Receipt.can.received.Takes fourth ∧
      (ofLog {} .can (turns ++ [{ fourth with payload := "can@40006800: 2X" }])).diagnostics =
        [.payload "can@40006800" 1 ⟨54, .inf, "sut", "can@40006800: 22"⟩
          ⟨56, .inf, "tester", "can@40006800: 2X"⟩] := by
  have hclean : (ofLog {} .can (turns ++ [fourth])).diagnostics = [] := by decide +kernel
  have htakes : Receipt.can.received.Takes fourth := ⟨by decide, by decide⟩
  have hchannel : Receipt.can.channel { fourth with payload := "can@40006800: 2X" } =
      Receipt.can.channel fourth := by decide +kernel
  obtain ⟨-, s, hs, -, hreport, -⟩ := corrupted_reception_is_localised {} .can turns [] fourth
    "can@40006800: 2X" hclean htakes (by decide) hchannel (by decide)
  have hposition : Receipt.can.position turns fourth = 1 := by decide +kernel
  have hname : Receipt.can.channel fourth = "can@40006800" := by decide +kernel
  have hsent : (Receipt.can.sent.reportsOn "can@40006800" (turns ++ [fourth]))[1]? =
      some ⟨54, .inf, "sut", "can@40006800: 22"⟩ := by decide +kernel
  rw [hposition, hname, hsent, Option.some.injEq] at hs
  rw [hposition, hname, ← hs] at hreport
  exact ⟨hclean, htakes, hreport⟩

end Evaluation

end BoardBench
