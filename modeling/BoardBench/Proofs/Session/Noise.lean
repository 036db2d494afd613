import BoardBench.Proofs.Session.Waiting

/-!
# Noise — what a device sends besides its answers does not show at a gate

Much may come before the answer to a question: the echo of the question, empty lines, a banner from
booting, reports about something else, lines that are garbled. All of it is noise (`IsNoise`), and
`ScriptedLink.SameButNoise l m` says of two links that they queue the same, now and when asked, once
the noise is left out. One of them may then be far ahead of the other with its reads, but each
question has the same outcome on both and leaves two links that are again the same but for noise
(`ScriptedLink.SameButNoise.question`). It follows for a whole wait, over all its questions:
**noise changes neither the answer nor how often the device is asked**
(`IdleGate.noise_does_not_change_the_answer`).

The relation between the two links is about what is left when the noise is taken out, of the queue
and of every batch that is still registered for the question. It is not about lines that were read,
since one of the links may have read its noise long before the other does. This is why the step of
the proof is a question and not a line: between two answers the links are out of step, and right
behind an answer they are related again.

Nothing is assumed of the delays, so that the two waits may take different times. What is the same
is how they end, how often the device was asked, and what is left.
-/

set_option autoImplicit false

namespace BoardBench

/-! ## Noise -/

/-- Lines that are no answer. -/
inductive IsNoise : String → Prop
  | empty : IsNoise ""
  | echo : IsNoise idleCommand
  | banner {line text : String} (h : Line.parse line = .ok (.banner text)) : IsNoise line
  | malformed {line : String} {e : LineError} (h : Line.parse line = .error e) : IsNoise line
  | report {line : String} {e : Event} (h : Line.parse line = .ok (.event e))
      (hidle : Text.foldCase e.payload ≠ "idle true".toList)
      (hbusy : Text.foldCase e.payload ≠ "idle false".toList) : IsNoise line

theorem isNoise_iff {line : String} : IsNoise line ↔ IdleReply.ofLine? line = none := by
  rw [Option.eq_none_iff_forall_ne_some]
  constructor
  · intro h reply hreply
    obtain ⟨hne, e, hparse, hpayload⟩ := IdleReply.ofLine?_eq_some_iff.1 hreply
    cases h with
    | empty => cases hparse
    | echo => exact hne rfl
    | banner h => cases h.symm.trans hparse
    | malformed h => cases h.symm.trans hparse
    | report h hidle hbusy =>
      cases h.symm.trans hparse
      cases reply with
      | idle => exact hidle hpayload
      | busy => exact hbusy hpayload
  · intro h
    by_cases hecho : line = idleCommand
    · exact hecho ▸ .echo
    · cases hparse : Line.parse line with
      | error e => exact .malformed hparse
      | ok read =>
        cases read with
        | banner text => exact .banner hparse
        | event e =>
          refine .report hparse (fun hidle => ?_) fun hbusy => ?_
          · exact h .idle (IdleReply.ofLine?_eq_some_iff.2 ⟨hecho, e, hparse, hidle⟩)
          · exact h .busy (IdleReply.ofLine?_eq_some_iff.2 ⟨hecho, e, hparse, hbusy⟩)

instance : DecidablePred IsNoise :=
  fun _ => decidable_of_iff _ isNoise_iff.symm

/-- A batch without its noise. -/
def withoutNoise (lines : List String) : List String :=
  lines.filter (¬ IsNoise ·)

namespace Incoming

/-- What a port would reject is noise, whatever it says. -/
def IsNoise : Incoming → Prop
  | .line text => BoardBench.IsNoise text
  | .nonAscii _ => True

instance : DecidablePred IsNoise
  | .line text => inferInstanceAs (Decidable (BoardBench.IsNoise text))
  | .nonAscii _ => inferInstanceAs (Decidable True)

/-- A queue without its noise. -/
def withoutNoise (queue : List Incoming) : List Incoming :=
  queue.filter (¬ IsNoise ·)

theorem withoutNoise_append (xs ys : List Incoming) :
    withoutNoise (xs ++ ys) = withoutNoise xs ++ withoutNoise ys :=
  List.filter_append xs ys

theorem withoutNoise_lines (lines : List String) :
    withoutNoise (lines.map .line) = (BoardBench.withoutNoise lines).map .line := by
  rw [withoutNoise, List.filter_map, BoardBench.withoutNoise]
  rfl

theorem withoutNoise_cons_of_noise {i : Incoming} (h : i.IsNoise) (queue : List Incoming) :
    withoutNoise (i :: queue) = withoutNoise queue :=
  List.filter_cons_of_neg (by simpa using h)

theorem withoutNoise_cons_of_not {i : Incoming} (h : ¬ i.IsNoise) (queue : List Incoming) :
    withoutNoise (i :: queue) = i :: withoutNoise queue :=
  List.filter_cons_of_pos (by simpa using h)

end Incoming

/-! ## Up to the answer -/

theorem Incoming.isNoise_iff {i : Incoming} : i.IsNoise ↔ i.reply? = none := by
  cases i with
  | line text => exact BoardBench.isNoise_iff
  | nonAscii text => exact iff_of_true trivial rfl

namespace ScriptedLink

/-- How a read ends that finds the queue empty. -/
def silence (l : ScriptedLink) : Ending BenchError IdleReply :=
  if l.hangs then .stalled else .failed (.link (.timeout l.name 0))

/-- What is heard of the device: its first answer, if there is one. -/
def reply (l : ScriptedLink) : Ending BenchError IdleReply :=
  match l.pending.filterMap Incoming.reply? with
  | reply :: _ => .done reply
  | [] => l.silence

end ScriptedLink

namespace IdleGate

open ScriptedLink

variable {l : ScriptedLink} {i : Incoming} {queue : List Incoming}

theorem readBy_of_read {σ : Type} [Link σ] {l l' : σ} {d : Nat}
    {outcome : Except LinkError String} (h : Link.read l = .after d outcome l') (c : Clock) :
    ∃ c', Link.readBy none l c = match outcome with
      | .ok line => ⟨.done line, l', c'⟩
      | .error e => ⟨.failed e, l', c'⟩ := by
  obtain ⟨c', hpause⟩ : ∃ c', (if d = 0 then some c else c.pause none d) = some c' := by
    split
    · exact ⟨c, rfl⟩
    · exact pause_none c d
  refine ⟨c', ?_⟩
  cases outcome with
  | ok line => simp only [Link.readBy, h, hpause]
  | error e => simp only [Link.readBy, h, hpause]

/-- The wait is over with the first entry that gives an answer. -/
theorem awaitReply_answer {reply : IdleReply} (hp : l.pending = i :: queue)
    (hi : i.reply? = some reply) (c : Clock) :
    ∃ c', awaitReply none l c = ⟨.done reply, { l with pending := queue }, c'⟩ := by
  cases i with
  | nonAscii text => cases hi
  | line text =>
    have hread : Link.read l = .after l.delayMs (.ok text) { l with pending := queue } := by
      simp only [Link.read, ScriptedLink.read, hp]
    obtain ⟨c', hreadBy⟩ := readBy_of_read hread c
    refine ⟨c', ?_⟩
    have htext : IdleReply.ofLine? text = some reply := hi
    rw [awaitReply_of_done hreadBy, htext]

/-- Noise is passed over, which takes time and no more. -/
theorem awaitReply_noise (hp : l.pending = i :: queue) (hi : i.IsNoise) (c : Clock) :
    ∃ c', awaitReply none l c = awaitReply none { l with pending := queue } c' := by
  cases i with
  | line text =>
    have hread : Link.read l = .after l.delayMs (.ok text) { l with pending := queue } := by
      simp only [Link.read, ScriptedLink.read, hp]
    obtain ⟨c', hreadBy⟩ := readBy_of_read hread c
    refine ⟨c', ?_⟩
    have htext : IdleReply.ofLine? text = none := Incoming.isNoise_iff.1 hi
    rw [awaitReply_of_done hreadBy, htext]
  | nonAscii text =>
    have hread : Link.read l =
        .after l.delayMs (.error (.nonAscii l.name text)) { l with pending := queue } := by
      simp only [Link.read, ScriptedLink.read, hp]
    obtain ⟨c', hreadBy⟩ := readBy_of_read hread c
    refine ⟨c', ?_⟩
    rw [awaitReply_of_failed hreadBy]
    rfl

theorem awaitReply_drained (hp : l.pending = []) (c : Clock) :
    ∃ c', awaitReply none l c = ⟨l.silence, l, c'⟩ := by
  by_cases hhangs : l.hangs = true
  · have hread : Link.readBy none l c = ⟨.stalled, l, c⟩ := by
      simp only [Link.readBy, Link.read, ScriptedLink.read, hp, if_pos hhangs, Clock.giveUp]
    exact ⟨c, by rw [awaitReply_of_stalled hread, silence, if_pos hhangs]⟩
  · have hread : Link.read l = .after l.delayMs (.error (.timeout l.name 0)) l := by
      simp only [Link.read, ScriptedLink.read, hp, if_neg hhangs]
    obtain ⟨c', hreadBy⟩ := readBy_of_read hread c
    refine ⟨c', ?_⟩
    rw [awaitReply_of_failed hreadBy, silence, if_neg hhangs]
    rfl

/-- **What comes of a question is what is heard of the device**, and without its noise the queue is
one entry shorter then. -/
theorem awaitReply_eq (l : ScriptedLink) (c : Clock) :
    ∃ queue c', awaitReply none l c = ⟨l.reply, { l with pending := queue }, c'⟩ ∧
      Incoming.withoutNoise queue = (Incoming.withoutNoise l.pending).tail := by
  obtain ⟨pending, hp⟩ : ∃ pending, l.pending = pending := ⟨_, rfl⟩
  induction pending generalizing l c with
  | nil =>
    obtain ⟨c', hawait⟩ := awaitReply_drained hp c
    refine ⟨[], c', ?_, ?_⟩
    · rw [hawait, reply, hp]
      congr 1
      rw [← hp]
    · rw [hp]
      rfl
  | cons i pending ih =>
    by_cases hi : i.IsNoise
    · obtain ⟨c₁, hawait⟩ := awaitReply_noise hp hi c
      obtain ⟨queue, c', heq, hqueue⟩ := ih { l with pending } c₁ rfl
      refine ⟨queue, c', ?_, ?_⟩
      · rw [hawait, heq, reply, reply, hp,
          List.filterMap_cons_none (Incoming.isNoise_iff.1 hi)]
        rfl
      · rw [hqueue, hp, Incoming.withoutNoise_cons_of_noise hi]
    · obtain ⟨answer, hanswer⟩ := Option.ne_none_iff_exists'.1 (mt Incoming.isNoise_iff.2 hi)
      obtain ⟨c', hawait⟩ := awaitReply_answer hp hanswer c
      refine ⟨pending, c', ?_, ?_⟩
      · rw [hawait, reply, hp, List.filterMap_cons_some hanswer]
      · rw [hp, Incoming.withoutNoise_cons_of_not hi, List.tail_cons]

end IdleGate

/-! ## Two links -/

/-- The links queue the same, now and when asked, once the noise is left out. -/
structure ScriptedLink.SameButNoise (l m : ScriptedLink) : Prop where
  name : l.name = m.name
  hangs : l.hangs = m.hangs
  pending : Incoming.withoutNoise l.pending = Incoming.withoutNoise m.pending
  batches : (l.replies.batches idleCommand).map withoutNoise =
    (m.replies.batches idleCommand).map withoutNoise

namespace ScriptedLink

variable {l m : ScriptedLink}

/-- Noise gives no answer, so that leaving it out leaves all the answers. -/
theorem filterMap_answer_withoutNoise (queue : List Incoming) :
    (Incoming.withoutNoise queue).filterMap Incoming.reply? =
      queue.filterMap Incoming.reply? := by
  rw [Incoming.withoutNoise, List.filterMap_filter]
  refine List.filterMap_congr fun i _ => ?_
  by_cases hi : i.IsNoise
  · rw [if_neg (by simpa using hi), Incoming.isNoise_iff.1 hi]
  · rw [if_pos (by simpa using hi)]

theorem SameButNoise.reply_eq (h : l.SameButNoise m) : l.reply = m.reply := by
  have hanswers : l.pending.filterMap Incoming.reply? = m.pending.filterMap Incoming.reply? := by
    rw [← filterMap_answer_withoutNoise, h.pending, filterMap_answer_withoutNoise]
  rw [reply, reply, hanswers, silence, silence, h.name, h.hangs]

/-- Both links get the same reply to a question, except for the noise in it. -/
theorem SameButNoise.write (h : l.SameButNoise m) :
    (l.write idleCommand).SameButNoise (m.write idleCommand) := by
  have hafter : ∀ bs, (Replies.afterFirst bs).map withoutNoise =
      Replies.afterFirst (bs.map withoutNoise) := by
    intro bs
    match bs with
    | [] => rfl
    | [_] => rfl
    | _ :: _ :: _ => rfl
  have hhead : ∀ bs : List (List String), withoutNoise (bs.headD []) =
      (bs.map withoutNoise).headD [] := by
    intro bs
    cases bs <;> rfl
  refine ⟨h.name, h.hangs, ?_, ?_⟩
  · show Incoming.withoutNoise (l.pending ++ (l.replies.next idleCommand).1.map .line) =
      Incoming.withoutNoise (m.pending ++ (m.replies.next idleCommand).1.map .line)
    rw [Incoming.withoutNoise_append, Incoming.withoutNoise_append, Incoming.withoutNoise_lines,
      Incoming.withoutNoise_lines, Replies.next_fst, Replies.next_fst, hhead, hhead, h.pending,
      h.batches]
  · show ((l.replies.next idleCommand).2.batches idleCommand).map withoutNoise =
      ((m.replies.next idleCommand).2.batches idleCommand).map withoutNoise
    rw [Replies.batches_next, Replies.batches_next, hafter, hafter, h.batches]

/-- **One question comes to the same on both links**, and afterwards they are again the same but
for noise. -/
theorem SameButNoise.question (h : l.SameButNoise m) (c c' : Clock) :
    (IdleGate.awaitReply none (l.write idleCommand) c).ending =
        (IdleGate.awaitReply none (m.write idleCommand) c').ending ∧
      (IdleGate.awaitReply none (l.write idleCommand) c).link.SameButNoise
        (IdleGate.awaitReply none (m.write idleCommand) c').link ∧
      (IdleGate.awaitReply none (l.write idleCommand) c).link.written =
        l.written ++ [idleCommand] := by
  have hwrite := h.write
  obtain ⟨queue, c₁, hl, hqueue⟩ := IdleGate.awaitReply_eq (l.write idleCommand) c
  obtain ⟨queue', c₂, hm, hqueue'⟩ := IdleGate.awaitReply_eq (m.write idleCommand) c'
  rw [hl, hm]
  refine ⟨hwrite.reply_eq, ⟨h.name, h.hangs, ?_, hwrite.batches⟩, rfl⟩
  rw [hqueue, hqueue', hwrite.pending]

theorem SameButNoise.symm (h : l.SameButNoise m) : m.SameButNoise l :=
  ⟨h.name.symm, h.hangs.symm, h.pending.symm, h.batches.symm⟩

end ScriptedLink

namespace IdleGate

open ScriptedLink

/-- Two waits come to the same: they end alike after as many questions, and what they leave is the
same but for noise. -/
structure SameWait (l m : ScriptedLink) (r r' : Settled ScriptedLink BenchError Nat) : Prop where
  ending : r.ending = r'.ending
  links : r.link.SameButNoise r'.link
  questions : ∃ k, r.link.written = l.written ++ List.replicate k idleCommand ∧
    r'.link.written = m.written ++ List.replicate k idleCommand

/-- One question more, and what comes after it. -/
theorem SameWait.after {l m l' m' : ScriptedLink} {r r' : Settled ScriptedLink BenchError Nat}
    (hl : l'.written = l.written ++ [idleCommand]) (hm : m'.written = m.written ++ [idleCommand])
    (h : SameWait l' m' r r') : SameWait l m r r' := by
  obtain ⟨hending, hlinks, k, hk, hk'⟩ := h
  refine ⟨hending, hlinks, k + 1, ?_, ?_⟩
  · rw [hk, hl, List.append_assoc, List.replicate_succ, List.singleton_append]
  · rw [hk', hm, List.append_assoc, List.replicate_succ, List.singleton_append]

/-- A wait that is over. -/
theorem SameWait.over {l m : ScriptedLink} (h : l.SameButNoise m) (ending : Ending BenchError Nat)
    (c c' : Clock) : SameWait l m ⟨ending, l, c⟩ ⟨ending, m, c'⟩ :=
  ⟨rfl, h, 0, (List.append_nil _).symm, (List.append_nil _).symm⟩

/-- The questions, by induction on how many are left. -/
theorem sameWait_ask (gate : IdleGate) (left asked : Nat) {l m : ScriptedLink}
    (h : l.SameButNoise m) (c c' : Clock) :
    SameWait l m (gate.ask none left asked l c) (gate.ask none left asked m c') := by
  induction left generalizing asked l m c c' with
  | zero =>
    have hname : Link.name l = Link.name m := h.name
    rw [ask_zero, ask_zero, hname]
    exact .over h _ c c'
  | succ left ih =>
    obtain ⟨hending, hlinks, hl⟩ := h.question c c'
    obtain ⟨-, -, hm⟩ := h.symm.question c' c
    have hwrite : ∀ link : ScriptedLink,
        Link.write idleCommand link = (.ok (), link.write idleCommand) := fun _ => rfl
    apply SameWait.after hl hm
    simp only [ask_succ, hwrite]
    rw [← hending]
    -- the answer is the same on both sides, so both go the same way from here
    cases (awaitReply none (l.write idleCommand) c).ending with
    | failed e => exact .over hlinks (.failed e) _ _
    | stalled => exact .over hlinks .stalled _ _
    | done answer =>
      cases answer with
      | idle => exact .over hlinks (.done (asked + 1)) _ _
      | busy =>
        dsimp only
        split
        · exact ih (asked + 1) hlinks _ _
        · obtain ⟨c₁, hpause⟩ := pause_none
            (awaitReply none (l.write idleCommand) c).clock gate.retryDelayMs
          obtain ⟨c₂, hpause'⟩ := pause_none
            (awaitReply none (m.write idleCommand) c').clock gate.retryDelayMs
          rw [hpause, hpause']
          exact ih (asked + 1) hlinks c₁ c₂

/-- **Noise never changes what a gate answers.** On two links that are the same but for noise, a
wait ends in the same way after as many questions, and leaves two links that are again the same but
for noise. Their delays and clocks have no part in it. -/
theorem noise_does_not_change_the_answer (gate : IdleGate) {l m : ScriptedLink}
    (h : l.SameButNoise m) (c c' : Clock) :
    (gate.waitUntilIdle none l c).ending = (gate.waitUntilIdle none m c').ending ∧
      (gate.waitUntilIdle none l c).link.SameButNoise (gate.waitUntilIdle none m c').link ∧
      ∃ k, (gate.waitUntilIdle none l c).link.written =
          l.written ++ List.replicate k idleCommand ∧
        (gate.waitUntilIdle none m c').link.written =
          m.written ++ List.replicate k idleCommand := by
  obtain ⟨hending, hlinks, hquestions⟩ := sameWait_ask gate gate.maxAttempts 0 h c c'
  exact ⟨hending, hlinks, hquestions⟩

/-- A device that answers busy once and has nothing else to say. -/
def terseDevice : ScriptedLink :=
  { name := "ttyACM0"
    replies := [(idleCommand, [["[1] <inf> sut: idle false"], ["[9] <inf> sut: Idle True"]])]
    delayMs := 2 }

/-- The same device, but it echoes what it is asked, reports something else, and boots. -/
def chattyDevice : ScriptedLink :=
  { name := "ttyACM0"
    pending := [.nonAscii "\x00", .line "", .line "[0] <inf> sut: not idle"]
    replies := [(idleCommand, [["idle", "[1] <inf> sut: idle false", "idle"],
      ["*** Booting ***", "[x] <inf> sut: idle true", "[9] <inf> sut: Idle True"]])]
    delayMs := 2 }

theorem chatty_device_answers_as_terse_device :
    terseDevice.SameButNoise chattyDevice ∧
      ((⟨3, 100⟩ : IdleGate).waitUntilIdle none terseDevice {}).ending =
        ((⟨3, 100⟩ : IdleGate).waitUntilIdle none chattyDevice {}).ending ∧
      ((⟨3, 100⟩ : IdleGate).waitUntilIdle none terseDevice {}).link.SameButNoise
        ((⟨3, 100⟩ : IdleGate).waitUntilIdle none chattyDevice {}).link ∧
      ∃ k, ((⟨3, 100⟩ : IdleGate).waitUntilIdle none terseDevice {}).link.written =
          terseDevice.written ++ List.replicate k idleCommand ∧
        ((⟨3, 100⟩ : IdleGate).waitUntilIdle none chattyDevice {}).link.written =
          chattyDevice.written ++ List.replicate k idleCommand := by
  have h : terseDevice.SameButNoise chattyDevice :=
    ⟨rfl, rfl, by decide, by decide⟩
  exact ⟨h, noise_does_not_change_the_answer ⟨3, 100⟩ h {} {}⟩

end IdleGate

end BoardBench
