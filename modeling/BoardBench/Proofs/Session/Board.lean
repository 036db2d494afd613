import BoardBench.Proofs.Evaluation.Traffic
import BoardBench.Proofs.Session.Script

/-!
# Boards — a healthy board passes, and one corruption fails one subsystem

Everything comes together here: two devices answer the bench from a script, what they report in the
five phases is the traffic between two boards, and the test is judged by it.

**`Session.healthy_board_passes_and_one_corruption_fails_one`** is about boards of any size, with
tests of any length and logs mixed in any way. That no line gets from one phase into another is the
matter of `Session.runTests_script`; that the verdicts are those of the traffic is the matter of
`Traffic.Fine.diagnostics` and `Traffic.Corrupts.diagnostics`.

A board is described by what is sighted on the tracks of its tests, and not by logs. So whatever is
said about a healthy board is said of devices, and the logs come out of the phases. A corruption is
a change to the same data, in one place, so that both parts of the statement are about boards that
are run in the same way, and it is the verdict that differs.

The capacity is an arbitrary number here. A queue that cannot be made ends the test before its first
phase, which the statement says of all capacities above the limit, instead of leaving them out.
-/

set_option autoImplicit false

namespace BoardBench

/-! ## Identities -/

def Role.idEvent (r : Role) (time : UInt64) (id : String) : Event :=
  ⟨time, .inf, r.tag, "id: " ++ id⟩

theorem Role.mentions_idEvent (r : Role) (time : UInt64) (id : String) :
    (r.idEvent time id).mentions Identity.marker = true := by
  refine Text.occursIn_iff.2 ⟨[], ' ' :: id.toList, ?_⟩
  show [] ++ Identity.marker.toList ++ ' ' :: id.toList = ("id: " ++ id).toList
  rw [String.toList_append]
  rfl

theorem Role.idOf_idEvent (r : Role) (time : UInt64) (id : String) :
    Identity.idOf (r.idEvent time id) = id := by
  have hlist : ("id: " ++ id).toList = "id: ".toList ++ id.toList := String.toList_append ..
  show Text.withoutLead "id: " ("id: " ++ id) = id
  rw [Text.withoutLead, if_pos]
  · rw [hlist, List.drop_left, String.ofList_toList]
  · rw [hlist, List.isPrefixOf_iff_prefix]
    exact List.prefix_append _ _

/-- Of what a board streams in the first phase, the id is all that identifies it. -/
theorem Identity.filter_frames {r : Role} {e : Event} {stream : List Event}
    (he : e.mentions Identity.marker = true) (h : Identity.bracket.Frames r [e] stream) :
    stream.filter (·.mentions Identity.marker) = [e] := by
  obtain ⟨t₁, t₂, rfl⟩ := h
  have hplain : Text.contains Identity.bracket.start Identity.marker = false ∧
      Text.contains Identity.bracket.stop Identity.marker = false := by decide
  have hself : [e].filter (·.mentions Identity.marker) = [e] := by simp [he]
  rw [List.filter_append, List.filter_cons_of_neg (by simp [Event.mentions, hplain.1]), hself,
    List.filter_cons_of_neg (by simp [Event.mentions, hplain.2])]
  rfl

theorem Role.isFrom_idEvent (r r' : Role) (time : UInt64) (id : String) :
    (r.idEvent time id).isFrom r' = decide (r = r') :=
  Event.isFrom_tag _ _ _ _

/-- **Two boards that tell their ids are identified**, in whichever order they do. -/
theorem Identity.ofLog_of_frames {time time' : UInt64} {id id' : String} {es fs log : List Event}
    (hsut : Identity.bracket.Frames .sut [Role.sut.idEvent time id] es)
    (htester : Identity.bracket.Frames .tester [Role.tester.idEvent time' id'] fs)
    (hmix : Interleaving es fs log) :
    Identity.ofLog log = .ok ⟨log, Role.sut.idEvent time id, Role.tester.idEvent time' id'⟩ := by
  have hids : Interleaving [Role.sut.idEvent time id] [Role.tester.idEvent time' id']
      (Identity.idEvents log) := by
    have hfilter := hmix.filter (·.mentions Identity.marker)
    rwa [filter_frames (Role.mentions_idEvent _ _ _) hsut,
      filter_frames (Role.mentions_idEvent _ _ _) htester] at hfilter
  have hlength : (Identity.idEvents log).length = 2 := hids.length_eq
  have hsingle : ∀ {r : Role} {e : Event},
      (Identity.idEvents log).filter (·.isFrom r) = [e] →
        single r (Identity.idEvents log) = .ok e := by
    intro r e hfilter
    rw [single, hfilter]
  have hfirst : single .sut (Identity.idEvents log) = .ok (Role.sut.idEvent time id) := by
    apply hsingle
    rw [hids.filter_left (by simp [Role.isFrom_idEvent])]
    simp [Role.isFrom_idEvent]
  have hsecond : single .tester (Identity.idEvents log) = .ok (Role.tester.idEvent time' id') := by
    apply hsingle
    rw [hids.filter_right (by simp [Role.isFrom_idEvent])]
    simp [Role.isFrom_idEvent]
  simp only [ofLog, hlength, ne_eq, not_true_eq_false, if_false, hfirst, hsecond]

/-! ## Boards -/

/-- The text neither starts nor ends with a blank. -/
def Text.Trimmed (text : String) : Prop :=
  (∃ c, text.toList.head? = some c ∧ isBlank c = false) ∧
    ∃ c, text.toList.getLast? = some c ∧ isBlank c = false

theorem BoardTest.trimmed {b : Bracket} (hb : b ∈ BoardTest.phases) :
    Text.Trimmed b.start ∧ Text.Trimmed b.stop ∧ b.start ≠ b.stop ∧
      '@' ∉ b.stop.toList ∧ b.stop.toList.head? ≠ some 'i' := by
  have hall : ∀ b ∈ BoardTest.phases,
      (b.start.toList.head?.any (!Text.isBlank ·) ∧ b.start.toList.getLast?.any (!Text.isBlank ·)) ∧
      (b.stop.toList.head?.any (!Text.isBlank ·) ∧ b.stop.toList.getLast?.any (!Text.isBlank ·)) ∧
      b.start ≠ b.stop ∧ '@' ∉ b.stop.toList ∧ b.stop.toList.head? ≠ some 'i' := by decide
  have hany : ∀ {o : Option Char}, o.any (!Text.isBlank ·) = true →
      ∃ c, o = some c ∧ Text.isBlank c = false := by
    intro o ho
    obtain ⟨c, hc, hblank⟩ := (Option.any_eq_true _ _).1 ho
    exact ⟨c, hc, by simpa using hblank⟩
  obtain ⟨⟨hs, hs'⟩, ⟨ht, ht'⟩, hrest⟩ := hall b hb
  exact ⟨⟨hany hs, hany hs'⟩, ⟨hany ht, hany ht'⟩, hrest⟩

theorem Role.head?_idEvent (r : Role) (time : UInt64) (id : String) :
    (r.idEvent time id).payload.toList.head? = some 'i' := by
  show ("id: " ++ id).toList.head? = _
  rw [String.toList_append]
  rfl

/-- An id comes through if no blank is at its end. -/
theorem Role.legible_idEvent {r : Role} {time : UInt64} {id : String} {c : Char}
    (hlast : id.toList.getLast? = some c) (hc : Text.isBlank c = false) :
    (r.idEvent time id).Legible := by
  have hpayload : ("id: " ++ id).toList.getLast? = some c := by
    rw [String.toList_append, List.getLast?_append, hlast, Option.some_or]
  exact Event.legible_inf (r.head?_idEvent time id) (by decide) hpayload hc

theorem Role.idEvent_ne_stop {r : Role} {time : UInt64} {id : String} {b : Bracket}
    (hb : b ∈ BoardTest.phases) : (r.idEvent time id).payload ≠ b.stop := by
  obtain ⟨-, -, -, -, hhead⟩ := BoardTest.trimmed hb
  intro heq
  apply hhead
  rw [← heq]
  exact r.head?_idEvent time id

/-- What a board streams in a phase comes through, if the events in it do and none of them is the
stop message. -/
theorem Bracket.Frames.ends {b : Bracket} {r : Role} {es stream : List Event}
    (h : b.Frames r es stream) (hb : b ∈ BoardTest.phases)
    (hes : ∀ e ∈ es, e.Legible ∧ e.payload ≠ b.stop) : b.Ends stream := by
  obtain ⟨⟨⟨x, hx, hxb⟩, y, hy, hyb⟩, ⟨⟨z, hz, hzb⟩, w, hw, hwb⟩, hne, -⟩ := BoardTest.trimmed hb
  obtain ⟨t₁, t₂, rfl⟩ := h
  refine ⟨fun e he => ?_, _, _, rfl, rfl, fun e he => ?_⟩
  · simp only [List.mem_append, List.mem_cons, List.not_mem_nil, or_false] at he
    rcases he with (rfl | he) | rfl
    · exact Event.legible_inf hx hxb hy hyb
    · exact (hes e he).1
    · exact Event.legible_inf hz hzb hw hwb
  · rcases List.mem_cons.1 he with rfl | he
    · exact hne
    · exact (hes e he).2

/-- What a board streams in all phases: its id in the first one, its tracks in the others. -/
structure Traffic.Scripted (t : Traffic) (r : Role) (id : String)
    (script : Bracket → List Event) : Prop where
  ended : ∃ c, id.toList.getLast? = some c ∧ Text.isBlank c = false
  identity : ∃ time, Identity.bracket.Frames r [r.idEvent time id] (script Identity.bracket)
  tests : ∀ s, t.Streams s r (script s.bracket)

theorem Traffic.Scripted.ends {t : Traffic} {r : Role} {id : String} {script : Bracket → List Event}
    (h : t.Scripted r id script) {b : Bracket} (hb : b ∈ BoardTest.phases) : b.Ends (script b) := by
  obtain ⟨-, -, -, hat, -⟩ := BoardTest.trimmed hb
  rcases List.mem_cons.1 hb with rfl | hmem
  · obtain ⟨time, hframes⟩ := h.identity
    obtain ⟨c, hc, hblank⟩ := h.ended
    refine hframes.ends hb fun e he => ?_
    obtain rfl := List.mem_singleton.1 he
    exact ⟨Role.legible_idEvent hc hblank, Role.idEvent_ne_stop hb⟩
  · obtain ⟨s, -, rfl⟩ := List.mem_map.1 hmem
    obtain ⟨es, hes, hframes⟩ := h.tests s
    refine hframes.ends hb fun e he => ?_
    obtain ⟨k, x, -, -, hx, rfl⟩ := Traffic.mem_of_reports hes he
    refine ⟨Track.legible_event (t.carried k x hx), fun heq => hat ?_⟩
    rw [← heq]
    exact Track.at_mem_payload k x

/-- A link without delay that will answer in a board test from a script, whatever there is to be
read on it now. -/
structure ScriptedLink.Answers (idle : IdleSettings) (script : Bracket → List Event)
    (l : ScriptedLink) : Prop where
  instant : l.delayMs = 0
  patient : idle.enabled = true →
    Patient (max 1 idle.maxAttempts) BoardTest.phases.length (l.replies.batches idleCommand)
  answers : ∀ b ∈ BoardTest.phases, ∃ rest, l.replies.batches b.start = b.batch (script b) :: rest

namespace Session

open ScriptedLink

variable {c : Config} {s : Session ScriptedLink} {script : Side → Bracket → List Event}

theorem clearInput_armed (h : ∀ side, (s.link side).Answers c.idle (script side)) :
    (s.clearInput).1 = .ok () ∧
      (s.clearInput).2.Armed c.idle script BoardTest.phases.length BoardTest.phases := by
  refine ⟨rfl, ?_⟩
  rintro (_ | _)
  · exact ⟨⟨(h .first).instant, rfl⟩, (h .first).patient, (h .first).answers⟩
  · exact ⟨⟨(h .second).instant, rfl⟩, (h .second).patient, (h .second).answers⟩

/-- A log that mixes what the two links have is a log of the traffic, whichever of them is the board
under test. -/
theorem logs_of_mix {t : Traffic} {sut : Side} {sub : Subsystem} {log : List Event}
    (hsut : t.Streams sub .sut (script sut sub.bracket))
    (htester : t.Streams sub .tester (script sut.other sub.bracket))
    (hmix : Interleaving (script .first sub.bracket) (script .second sub.bracket) log) :
    t.Logs sub log := by
  cases sut with
  | first => exact ⟨_, _, hsut, htester, hmix⟩
  | second => exact ⟨_, _, hsut, htester, hmix.symm⟩

theorem hasErrors_ofLog {t : Traffic} {timing : TimingSettings} {sub : Subsystem} {log : List Event}
    (h : t.Logs sub log) : (Evaluation.ofLog timing sub log).hasErrors = true ↔
      (Evaluation.findingsOf timing sub log).diagnostics ≠ [] := by
  have hserial : (Evaluation.ofLog timing sub log).serialErrors = [] :=
    Traffic.serialErrors_eq_nil h _ rfl
  rw [Evaluation.hasErrors, hserial]
  simp [Evaluation.diagnostics, Evaluation.ofLog]

/-- The evaluations of a test, one for each subsystem, each of a log of the traffic. -/
theorem evaluations_of_forall₂ {t : Traffic} {timing : TimingSettings} {sut : Side}
    {subs : List Subsystem} {es : List Evaluation}
    (hsut : ∀ sub, t.Streams sub .sut (script sut sub.bracket))
    (htester : ∀ sub, t.Streams sub .tester (script sut.other sub.bracket))
    (h : List.Forall₂ (Evaluates timing script) subs es) :
    es.map Evaluation.subsystem = subs ∧
      ∀ e ∈ es, ∃ log, t.Logs e.subsystem log ∧ e = Evaluation.ofLog timing e.subsystem log := by
  induction h with
  | nil => exact ⟨rfl, by simp⟩
  | @cons sub e subs es he _ ih =>
    obtain ⟨log, hmix, rfl⟩ := he
    refine ⟨congrArg (sub :: ·) ih.1, fun e he => ?_⟩
    rcases List.mem_cons.1 he with rfl | he
    · exact ⟨log, logs_of_mix (hsut sub) (htester sub) hmix, rfl⟩
    · exact ih.2 e he

/-- **A healthy board always passes, and one corruption fails exactly one subsystem.** Take two
links without delay, of which one answers as a board under test and the other as a tester, both
from scripts that report some traffic. Then the test goes through, with the ids of both boards, and
no line is left over. If every subsystem is fine in this traffic, nothing is found. If it differs
in one sighting of one track from traffic in which every subsystem is fine, then errors are found
in the subsystem of that track, and in no other.

The queue may be of any size that a queue can have. With any other the test ends before its first
phase. -/
theorem healthy_board_passes_and_one_corruption_fails_one (c : Config) (s : Session ScriptedLink)
    (script : Side → Bracket → List Event) (sut : Side) (sutId testerId : String) (t : Traffic)
    (htime : 0 < c.phase.timeoutMs)
    (hlinks : ∀ side, (s.link side).Answers c.idle (script side))
    (hsut : t.Scripted .sut sutId (script sut))
    (htester : t.Scripted .tester testerId (script sut.other)) :
    (s.clearInput).1 = .ok () ∧
    (max 1 c.phase.channelCapacity ≤ Phase.queueLimit →
      ∃ test s', (s.clearInput).2.runTests c none = (.done test, s') ∧
        test.identity.sutId = sutId ∧ test.identity.testerId = testerId ∧
        test.evaluations.map Evaluation.subsystem = Subsystem.executionOrder ∧
        (∀ side, (s'.link side).pending = []) ∧
        ((∀ sub, t.Fine c.timing sub) → test.hasErrors = false) ∧
        ∀ (t₀ : Traffic) (k : Track), (∀ sub, t₀.Fine c.timing sub) → t₀.Corrupts k t →
          test.hasErrors = true ∧
          ∀ e ∈ test.evaluations, e.hasErrors = true ↔ e.subsystem = k.subsystem) ∧
    (Phase.queueLimit < max 1 c.phase.channelCapacity →
      ∃ s', (s.clearInput).2.runTests c none =
        (.failed (.queueTooLarge (max 1 c.phase.channelCapacity)), s')) := by
  obtain ⟨hclear, harmed⟩ := clearInput_armed hlinks
  refine ⟨hclear, fun hcap => ?_, fun hbig => runTests_queueTooLarge hbig harmed⟩
  obtain ⟨time, hsutId⟩ := hsut.identity
  obtain ⟨time', htesterId⟩ := htester.identity
  -- the boards may be plugged in either way, so the ids are looked up in an interleaving taken in
  -- the order of the roles
  have hid : ∀ log,
      Interleaving (script .first Identity.bracket) (script .second Identity.bracket) log →
      Identity.ofLog log =
        .ok ⟨log, Role.sut.idEvent time sutId, Role.tester.idEvent time' testerId⟩ := by
    intro log hmix
    apply Identity.ofLog_of_frames hsutId htesterId
    cases sut with
    | first => exact hmix
    | second => exact hmix.symm
  have hends : ∀ side, ∀ b ∈ BoardTest.phases, b.Ends (script side b) := by
    intro side b hb
    by_cases hside : side = sut
    · rw [hside]
      exact hsut.ends hb
    · rw [Side.eq_other_of_ne hside]
      exact htester.ends hb
  obtain ⟨test, s', hrun, ⟨log, hmix, hlog⟩, hes, hleft⟩ :=
    runTests_script hcap htime hends (fun log hmix => ⟨_, hid log hmix⟩) harmed
  obtain ⟨horder, hlogs⟩ := evaluations_of_forall₂ hsut.tests htester.tests hes
  have hidentity := Except.ok.inj (hlog.symm.trans (hid log hmix))
  refine ⟨test, s', hrun, ?_, ?_, horder, hleft, fun hfine => ?_,
    fun t₀ k hfine hcorrupt => ?_⟩
  · rw [hidentity]
    exact Role.idOf_idEvent _ _ _
  · rw [hidentity]
    exact Role.idOf_idEvent _ _ _
  · rw [BoardTest.hasErrors, List.any_eq_false]
    intro e he
    obtain ⟨log, hlog, heq⟩ := hlogs e he
    rw [heq, hasErrors_ofLog hlog, not_not]
    exact (hfine e.subsystem).diagnostics hlog
  -- only the evaluation of the corrupted track can change its verdict; that it is among those made
  -- is a matter of the plan
  · have hverdict : ∀ e ∈ test.evaluations, e.hasErrors = true ↔ e.subsystem = k.subsystem := by
      intro e he
      obtain ⟨log, hlog, heq⟩ := hlogs e he
      generalize hsub : e.subsystem = sub at hlog heq
      rw [heq, hasErrors_ofLog hlog]
      by_cases hk : sub = k.subsystem
      · subst hk
        exact iff_of_true (hcorrupt.diagnostics (hfine _) hlog) rfl
      · exact iff_of_false
          (not_not.2 ((hcorrupt.fine_of_ne (hfine sub) hk).diagnostics hlog)) hk
    refine ⟨?_, hverdict⟩
    have hmem : k.subsystem ∈ test.evaluations.map Evaluation.subsystem := by
      rw [horder]
      cases k <;> decide
    obtain ⟨e, he, hsub⟩ := List.mem_map.1 hmem
    exact List.any_eq_true.2 ⟨e, he, (hverdict e he).2 hsub⟩

end Session

/-! ### Two boards that say hello -/

namespace Traffic

/-- The events of a board in a phase, one track after the other. -/
def body (t : Traffic) (r : Role) (id : String) (b : Bracket) : List Event :=
  match Subsystem.executionOrder.find? (·.bracket = b) with
  | some s => t.events (s.tracks r).1 ++ (s.tracks r).2.elim [] t.events
  | none => [r.idEvent 5 id]

def script (t : Traffic) (r : Role) (id : String) (b : Bracket) : List Event :=
  ⟨0, .inf, r.tag, b.start⟩ :: t.body r id b ++ [⟨9999, .inf, r.tag, b.stop⟩]

/-- A device that keeps to the script. -/
def device (t : Traffic) (r : Role) (id name : String) (idle : List (List String)) :
    ScriptedLink where
  name := name
  replies := (idleCommand, idle) ::
    BoardTest.phases.map fun b => (b.start, [b.batch (t.script r id b)])

theorem scripted_script (t : Traffic) (r : Role) {id : String} {c : Char}
    (hid : id.toList.getLast? = some c) (hc : Text.isBlank c = false) :
    t.Scripted r id (t.script r id) where
  ended := ⟨c, hid, hc⟩
  identity := ⟨5, 0, 9999, rfl⟩
  tests s := by
    have hbody : t.body r id s.bracket =
        t.events (s.tracks r).1 ++ (s.tracks r).2.elim [] t.events := by
      cases s <;> rfl
    exact ⟨_, Interleaving.append _ _, 0, 9999, by rw [script, hbody]⟩

theorem answers_device (t : Traffic) (r : Role) (id name : String) {idle : List (List String)}
    {settings : IdleSettings}
    (h : Patient (max 1 settings.maxAttempts) BoardTest.phases.length idle) :
    (t.device r id name idle).Answers settings (t.script r id) where
  instant := rfl
  patient _ := by
    show Patient _ _ (Replies.batches idleCommand ((idleCommand, idle) :: _))
    rw [Replies.batches, if_pos rfl]
    exact h
  answers b hb := by
    have hnodup := (List.nodup_cons.1 Session.planned_phases.apart).2
    refine ⟨[], ?_⟩
    show Replies.batches b.start ((idleCommand, idle) :: _) = _
    rw [Replies.batches, if_neg (Ne.symm (Session.planned_phases.start_ne_idle hb))]
    exact Replies.batches_map hnodup hb

end Traffic

namespace Session

/-- Sightings at one peripheral, evenly spaced. -/
def spread (start step : Nat) (u : Address) (data : List String) : List Sighting :=
  data.zipIdx.map fun (d, i) => ⟨UInt64.ofNat (start + step * i), u, d⟩

def greetingUnit : Subsystem → Address
  | .lin => ⟨"40004800", rfl, List.all_eq_true.1 (by decide)⟩
  | .uart => ⟨"40013800", rfl, List.all_eq_true.1 (by decide)⟩
  | .gpio => ⟨"48000800", rfl, List.all_eq_true.1 (by decide)⟩
  | .can => ⟨"40006400", rfl, List.all_eq_true.1 (by decide)⟩

def greetingData : Subsystem → List String
  | .lin => ["a", "b", "c"]
  | .uart => ["h", "e", "l", "l", "o"]
  | .gpio => ["1", "2"]
  | .can => ["0x123, data: 01", "0x123, data: 02", "0x123, data: 03"]

def greetingStep : Subsystem → Nat
  | .lin => 100
  | .uart => 5
  | .gpio => 20
  | .can => 50

theorem carries_greetingData (s : Subsystem) : ∀ d ∈ greetingData s, s.Carries d := by
  have hlast : ∀ {d : String}, d.toList.getLast?.any (!Text.isBlank ·) = true →
      ∃ c, d.toList.getLast? = some c ∧ Text.isBlank c = false := by
    intro d hd
    obtain ⟨c, hc, hblank⟩ := (Option.any_eq_true _ _).1 hd
    exact ⟨c, hc, by simpa using hblank⟩
  cases s with
  | lin =>
    have hall : ∀ d ∈ greetingData .lin, d.toList.getLast?.any (!Text.isBlank ·) = true := by decide
    exact fun d hd => hlast (hall d hd)
  | can =>
    have hall : ∀ d ∈ greetingData .can, d.toList.getLast?.any (!Text.isBlank ·) = true := by decide
    exact fun d hd => hlast (hall d hd)
  | uart =>
    intro d hd
    simp only [greetingData, List.mem_cons, List.not_mem_nil, or_false] at hd
    rcases hd with rfl | rfl | rfl | rfl | rfl <;> exact ⟨_, rfl, by decide⟩
  | gpio =>
    intro d hd
    simp only [greetingData, List.mem_cons, List.not_mem_nil, or_false] at hd
    rcases hd with rfl | rfl
    · exact ⟨1, by simp [Text.decimal, Text.digits]; rfl⟩
    · exact ⟨2, by simp [Text.decimal, Text.digits]; rfl⟩

/-- All tracks of a test report the same. -/
def greeting : Traffic where
  seen k := spread (100 + greetingStep k.subsystem) (greetingStep k.subsystem)
    (greetingUnit k.subsystem) (greetingData k.subsystem)
  carried k x hx := by
    obtain ⟨⟨d, i⟩, hmem, rfl⟩ := List.mem_map.1 hx
    exact carries_greetingData _ d (List.fst_mem_of_mem_zipIdx hmem)

theorem lane_greeting (k : Track) (u : Address) :
    greeting.lane k u = if greetingUnit k.subsystem = u then greeting.seen k else [] := by
  have hunit : ∀ x ∈ greeting.seen k, x.unit = greetingUnit k.subsystem := by
    intro x hx
    obtain ⟨⟨d, i⟩, -, rfl⟩ := List.mem_map.1 hx
    rfl
  rw [Traffic.lane]
  split
  · rename_i heq
    rw [List.filter_eq_self]
    intro x hx
    rw [hunit x hx, decide_eq_true heq]
  · rename_i hne
    rw [List.filter_eq_nil_iff]
    intro x hx
    rw [hunit x hx, decide_eq_false hne]
    exact Bool.false_ne_true

theorem fine_greeting (s : Subsystem) : greeting.Fine ({} : TimingSettings) s where
  matching := by
    rintro j k rfl hk
    rw [Traffic.told, Traffic.told]
    show (spread _ _ _ _).map _ = (spread _ _ _ _).map _
    rw [hk]
  present _ k _ := by
    cases k <;> simp [greeting, spread, greetingData, Track.subsystem]
  repeated := by
    rintro rfl x hx
    obtain ⟨⟨d, i⟩, -, rfl⟩ := List.mem_map.1 hx
    rw [lane_greeting, if_pos rfl]
    decide
  spaced b hb xs hxs := by
    have hclock : ∀ b, ({} : TimingSettings).bounds? s = some b →
        ((greeting.seen s.clock).map s.clock.event).IsChain b.Apart := by
      cases s <;> intro b hb <;> cases hb <;> decide
    have hxs' : xs = greeting.seen s.clock ∨ xs = [] := by
      unfold Traffic.Series at hxs
      split at hxs
      · exact Or.inl hxs
      · obtain ⟨u, rfl⟩ := hxs
        rw [lane_greeting]
        split
        · exact Or.inl rfl
        · exact Or.inr rfl
    rcases hxs' with rfl | rfl
    · exact hclock b hb
    · exact .nil

/-- The same, but for one character that the tester hears. -/
def garbled : Traffic where
  seen := Function.update greeting.seen .uartEchoed
    (spread 105 5 (greetingUnit .uart) ["h", "e", "x", "l", "o"])
  carried k x hx := by
    by_cases hk : k = .uartEchoed
    · subst hk
      rw [Function.update_self] at hx
      obtain ⟨⟨d, i⟩, hmem, rfl⟩ := List.mem_map.1 hx
      have hcarries : ∀ d ∈ ["h", "e", "x", "l", "o"], Subsystem.uart.Carries d := by
        intro d hd
        simp only [List.mem_cons, List.not_mem_nil, or_false] at hd
        rcases hd with rfl | rfl | rfl | rfl | rfl <;> exact ⟨_, rfl, by decide⟩
      exact hcarries d (List.fst_mem_of_mem_zipIdx hmem)
    · rw [Function.update_of_ne hk] at hx
      exact greeting.carried k x hx

theorem seen_garbled : garbled.seen = Function.update greeting.seen .uartEchoed
    (spread 105 5 (greetingUnit .uart) ["h", "e", "x", "l", "o"]) := by
  unfold garbled
  rfl

theorem greeting_corrupts_garbled : greeting.Corrupts .uartEchoed garbled where
  others j hj := by
    rw [seen_garbled, Function.update_of_ne hj]
  altered := by
    refine ⟨spread 105 5 (greetingUnit .uart) ["h", "e"],
      spread 120 5 (greetingUnit .uart) ["l", "o"], some ⟨115, greetingUnit .uart, "l"⟩,
      some ⟨115, greetingUnit .uart, "x"⟩, rfl, ?_, ?_⟩
    · rw [seen_garbled, Function.update_self]
      rfl
    · decide

/-- The first device is idle at once, the second one takes a while the first time. -/
def greetingIdle : Side → List (List String)
  | .first => [["idle", "[1] <inf> sut: idle true"]]
  | .second => [["[1] <inf> tester: idle false"], ["[2] <inf> tester: idle true"]]

/-- A bench with two boards. There is a line on the first port that nobody asked for. -/
def benchOf (t : Traffic) : Session ScriptedLink where
  first := (t.device .sut "00aa11bb" "ttyACM0" (greetingIdle .first)).push (.line "boot")
  second := t.device .tester "99cc" "ttyACM1" (greetingIdle .second)

def benchScript (t : Traffic) : Side → Bracket → List Event :=
  Side.pick (t.script .sut "00aa11bb") (t.script .tester "99cc")

theorem patient_greetingIdle (side : Side) :
    Patient 10 BoardTest.phases.length (greetingIdle side) := by
  have hsut : IdleReply.idle.Batch ["idle", "[1] <inf> sut: idle true"] :=
    ⟨["idle"], _, rfl, by decide, by decide⟩
  have hbusy : IdleReply.busy.Batch ["[1] <inf> tester: idle false"] :=
    ⟨[], _, rfl, by simp, by decide⟩
  have hidle : IdleReply.idle.Batch ["[2] <inf> tester: idle true"] :=
    ⟨[], _, rfl, by simp, by decide⟩
  cases side with
  | first => exact patient_of_idle (by decide) hsut _
  | second =>
    refine ⟨[["[1] <inf> tester: idle false"]], _, [], rfl, by decide, ?_, hidle,
      patient_of_idle (by decide) hidle _⟩
    intro lines hlines
    rw [List.mem_singleton.1 hlines]
    exact hbusy

theorem answers_benchOf (t : Traffic) (side : Side) :
    ((benchOf t).link side).Answers ({} : IdleSettings) (benchScript t side) := by
  cases side with
  | first =>
    have h : (t.device .sut "00aa11bb" "ttyACM0" (greetingIdle .first)).Answers {}
        (t.script .sut "00aa11bb") :=
      t.answers_device _ _ _ (patient_greetingIdle .first)
    exact ⟨h.instant, h.patient, h.answers⟩
  | second => exact t.answers_device .tester "99cc" "ttyACM1" (patient_greetingIdle .second)

/-- These boards pass, and fail the test of one subsystem once a character is garbled. -/
theorem greeting_passes_and_garbled_fails :
    (∃ test s', ((benchOf greeting).clearInput).2.runTests {} none = (.done test, s') ∧
      test.hasErrors = false) ∧
    ∃ test s', ((benchOf garbled).clearInput).2.runTests {} none = (.done test, s') ∧
      test.hasErrors = true ∧ ∀ e ∈ test.evaluations, e.hasErrors = true ↔ e.subsystem = .uart := by
  have hsut : "00aa11bb".toList.getLast? = some 'b' := rfl
  have htester : "99cc".toList.getLast? = some 'c' := rfl
  have hboard := fun t : Traffic =>
    healthy_board_passes_and_one_corruption_fails_one {} (benchOf t) (benchScript t) .first
      "00aa11bb" "99cc" t (by decide) (answers_benchOf t)
      (t.scripted_script .sut hsut (by decide))
      (t.scripted_script .tester htester (by decide))
  constructor
  · obtain ⟨-, hfits, -⟩ := hboard greeting
    obtain ⟨test, s', hrun, -, -, -, -, hfine, -⟩ := hfits (by decide)
    exact ⟨test, s', hrun, hfine fine_greeting⟩
  · obtain ⟨-, hfits, -⟩ := hboard garbled
    obtain ⟨test, s', hrun, -, -, -, -, -, hcorrupt⟩ := hfits (by decide)
    obtain ⟨herr, honly⟩ := hcorrupt greeting .uartEchoed fine_greeting greeting_corrupts_garbled
    exact ⟨test, s', hrun, herr, honly⟩

end Session

end BoardBench
