import BoardBench.Proofs.Phase.Merge
import BoardBench.Proofs.Session.Gate

/-!
# Transfers — what passes over the two links, and in which order

A line that is sent and an outcome that is read are the *transfers* of a link. `Wire l ts l'` says
that a link came from `l` to `l'` by the transfers `ts`, each of which is what the link does at that
point. Transfers on both links, in the order in which they happen, are *traffic*; `Carries` says
that each link did its share of it.

There is traffic behind everything that a session does. A gate asks each device at least once and at
most as often as it may, and it is passed only with an idle answer from both
(`Session.carries_ensureIdle`). **A phase sends its start command to each link at most once and
before anything is read, and if it is run to its end, each link has given away the stop message
since** (`Session.carries_runPhase`).

A transfer has no time. The order of transfers on two links is a matter of the clock for those who
read, but not for those who send, and it is what is sent that must not overlap. A `Wire` names each
transfer together with the states of the link before and behind it, since a link is only known by
what it does next; that the same link could have done something else is then no question.

`Asked` and `Ran` say the same kind of thing about a gate and about a phase: what was sent in any
case, and what must have come if it was got through. Both take a Boolean for the latter, as the
first half is needed of activities that broke off, and the second half of the others. A statement
about the traffic of a test is put together from these two alone.
-/

set_option autoImplicit false

namespace BoardBench

/-- The activity came to a value. -/
def Ending.isDone {ε α : Type} : Ending ε α → Bool
  | .done _ => true
  | _ => false

/-! ## The transfers of one link -/

/-- What passes over a link: a line to the device, or what comes of a read. -/
inductive Transfer where
  | sent (line : String)
  | got (outcome : Except LinkError String)

/-- The line that was sent. -/
def Transfer.line? : Transfer → Option String
  | .sent line => some line
  | .got _ => none

def sentLines (ts : List Transfer) : List String :=
  ts.filterMap Transfer.line?

theorem sentLines_append (ts us : List Transfer) :
    sentLines (ts ++ us) = sentLines ts ++ sentLines us :=
  List.filterMap_append

section Wires

variable {σ : Type} [Link σ]

/-- A transfer that the link makes. -/
def Transfer.Moves : Transfer → σ → σ → Prop
  | .sent line, l, l' => ∃ outcome, Link.write line l = (outcome, l')
  | .got outcome, l, l' => ∃ d, Link.read l = .after d outcome l'

/-- Transfers that a link makes one after the other. -/
inductive Wire : σ → List Transfer → σ → Prop
  | nil (l : σ) : Wire l [] l
  | cons {l m l' : σ} {t : Transfer} {ts : List Transfer} (ht : t.Moves l m)
      (h : Wire m ts l') : Wire l (t :: ts) l'

variable {l m l' : σ} {ts us : List Transfer} {t : Transfer}

theorem Wire.single (ht : t.Moves l l') : Wire l [t] l' :=
  .cons ht (.nil l')

theorem wire_sent {line : String} {outcome : Except LinkError Unit}
    (h : Link.write line l = (outcome, l')) : Wire l [.sent line] l' :=
  .single ⟨outcome, h⟩

theorem wire_got {outcome : Except LinkError String} {d : Nat}
    (h : Link.read l = .after d outcome l') : Wire l [.got outcome] l' :=
  .single ⟨d, h⟩

theorem Wire.append (h : Wire l ts m) (h' : Wire m us l') : Wire l (ts ++ us) l' := by
  induction h with
  | nil => exact h'
  | cons ht _ ih => exact .cons ht (ih h')

end Wires

/-- A scripted link notes what is sent to it. -/
theorem Wire.written {l l' : ScriptedLink} {ts : List Transfer} (h : Wire l ts l') :
    l'.written = l.written ++ sentLines ts := by
  induction h with
  | nil l => exact (List.append_nil _).symm
  | @cons l m l' t ts ht _ ih =>
    cases t with
    | sent line =>
      obtain ⟨outcome, hwrite⟩ := ht
      cases hwrite
      rw [ih]
      exact List.append_assoc ..
    | got outcome =>
      obtain ⟨d, hread⟩ := ht
      have hsame : m.written = l.written := by
        unfold Link.read at hread
        change l.read = _ at hread
        unfold ScriptedLink.read at hread
        split at hread
        · cases hread
          rfl
        · cases hread
          rfl
        · split at hread
          · cases hread
          · cases hread
            rfl
      rw [ih, hsame]
      rfl

/-! ## Traffic -/

/-- The transfers of one side, in order. -/
def onSide (side : Side) (traffic : List (Side × Transfer)) : List Transfer :=
  (traffic.filter (·.1 == side)).map (·.2)

/-- The lines sent to one side, in order. -/
def sentOn (side : Side) (traffic : List (Side × Transfer)) : List String :=
  sentLines (onSide side traffic)

section Sides

variable {side other : Side} {ts : List Transfer} {traffic more : List (Side × Transfer)}
  {t : Transfer}

theorem onSide_append (side : Side) (traffic more : List (Side × Transfer)) :
    onSide side (traffic ++ more) = onSide side traffic ++ onSide side more := by
  rw [onSide, List.filter_append, List.map_append]
  rfl

theorem sentOn_append (side : Side) (traffic more : List (Side × Transfer)) :
    sentOn side (traffic ++ more) = sentOn side traffic ++ sentOn side more := by
  rw [sentOn, onSide_append, sentLines_append]
  rfl

theorem onSide_map_self (side : Side) (ts : List Transfer) :
    onSide side (ts.map (Prod.mk side)) = ts := by
  simp [onSide, List.filter_map, Function.comp_def]

theorem onSide_map_of_ne (h : other ≠ side) (ts : List Transfer) :
    onSide other (ts.map (Prod.mk side)) = [] := by
  simp [onSide, Ne.symm h]

/-- The transfers of a side are, in this order, part of the traffic. -/
theorem map_onSide_sublist (side : Side) (traffic : List (Side × Transfer)) :
    ((onSide side traffic).map (Prod.mk side)).Sublist traffic := by
  have hmap : (onSide side traffic).map (Prod.mk side) = traffic.filter (·.1 == side) := by
    rw [onSide, List.map_map]
    refine (List.map_congr_left fun x hx => ?_).trans (List.map_id _)
    obtain ⟨-, hside⟩ := List.mem_filter.1 hx
    rw [← eq_of_beq hside]
    rfl
  rw [hmap]
  exact List.filter_sublist

theorem mem_of_mem_onSide (h : t ∈ onSide side traffic) : (side, t) ∈ traffic :=
  (map_onSide_sublist side traffic).subset (List.mem_map_of_mem h)

theorem mem_sentOn {line : String} :
    line ∈ sentOn side traffic ↔ (side, .sent line) ∈ traffic := by
  simp only [sentOn, sentLines, onSide, List.mem_filterMap, List.mem_map, List.mem_filter,
    beq_iff_eq]
  constructor
  · rintro ⟨t, ⟨⟨s, t'⟩, ⟨hmem, rfl⟩, rfl⟩, hline⟩
    cases t' with
    | sent line' =>
      cases hline
      exact hmem
    | got outcome => cases hline
  · intro hmem
    exact ⟨.sent line, ⟨(side, .sent line), ⟨hmem, rfl⟩, rfl⟩, rfl⟩

end Sides

/-- Each link did its share of the traffic, in order. -/
def Carries {σ : Type} [Link σ] (l : Side → σ) (traffic : List (Side × Transfer)) (l' : Side → σ) :
    Prop :=
  ∀ side, Wire (l side) (onSide side traffic) (l' side)

section Carrying

variable {σ : Type} [Link σ] {l m l' : Side → σ} {traffic more : List (Side × Transfer)}
  {side : Side} {ts : List Transfer}

theorem carries_nil (l : Side → σ) : Carries l [] l := fun side => .nil (l side)

theorem Carries.append (h : Carries l traffic m) (h' : Carries m more l') :
    Carries l (traffic ++ more) l' := by
  intro side
  rw [onSide_append]
  exact (h side).append (h' side)

/-- What passes over one link only. -/
theorem carries_of_wire (h : Wire (l side) ts (l' side)) (hother : ∀ t, t ≠ side → l' t = l t) :
    Carries l (ts.map (Prod.mk side)) l' := by
  intro t
  by_cases ht : t = side
  · subst ht
    rw [onSide_map_self]
    exact h
  · rw [onSide_map_of_ne ht, hother t ht]
    exact .nil (l t)

end Carrying

/-! ## At a gate -/

section Gates

variable {σ : Type} [Link σ] {l l' : σ} {c c' : Clock} {limit : Limit}

/-- A read that comes to its end takes as long as the link says. -/
theorem read_of_readBy {r : Settled σ LinkError String} (hr : Link.readBy limit l c = r)
    (hend : r.ending ≠ .stalled) :
    ∃ d outcome, Link.read l = .after d outcome r.link ∧ r.clock.now = c.now + d ∧
      r.ending = match outcome with
        | .ok line => .done line
        | .error e => .failed e := by
  subst hr
  unfold Link.readBy at hend ⊢
  cases hread : Link.read l with
  | never d => exact absurd (by rw [hread]) hend
  | after d outcome rest =>
    rw [hread] at hend
    cases hpause : (if d = 0 then some c else c.pause limit d) with
    | none => exact absurd (by simp [hpause]) hend
    | some c' =>
      have hnow : c'.now = c.now + d := by
        split at hpause
        · rename_i hzero
          cases hpause
          rw [hzero, Nat.add_zero]
        · exact Clock.now_of_pause hpause
      simp only [hpause]
      cases outcome with
      | ok line => exact ⟨d, .ok line, rfl, hnow, rfl⟩
      | error e => exact ⟨d, .error e, rfl, hnow, rfl⟩

theorem read_of_readBy_done {line : String}
    (h : Link.readBy limit l c = ⟨.done line, l', c'⟩) :
    ∃ d, Link.read l = .after d (.ok line) l' ∧ c'.now = c.now + d := by
  obtain ⟨d, outcome, hread, hnow, hending⟩ := read_of_readBy h nofun
  cases outcome <;> cases hending
  exact ⟨d, hread, hnow⟩

theorem read_of_readBy_failed {e : LinkError}
    (h : Link.readBy limit l c = ⟨.failed e, l', c'⟩) :
    ∃ d, Link.read l = .after d (.error e) l' ∧ c'.now = c.now + d := by
  obtain ⟨d, outcome, hread, hnow, hending⟩ := read_of_readBy h nofun
  cases outcome <;> cases hending
  exact ⟨d, hread, hnow⟩

theorem moves_of_readBy_done {line : String}
    (h : Link.readBy limit l c = ⟨.done line, l', c'⟩) :
    (Transfer.got (.ok line)).Moves l l' := by
  obtain ⟨d, hread, -⟩ := read_of_readBy_done h
  exact ⟨d, hread⟩

theorem moves_of_readBy_failed {e : LinkError}
    (h : Link.readBy limit l c = ⟨.failed e, l', c'⟩) :
    (Transfer.got (.error e)).Moves l l' := by
  obtain ⟨d, hread, -⟩ := read_of_readBy_failed h
  exact ⟨d, hread⟩

theorem link_of_readBy_stalled (h : Link.readBy limit l c = ⟨.stalled, l', c'⟩) : l' = l := by
  unfold Link.readBy at h
  split at h
  · cases h
    rfl
  · split at h
    · cases h
      rfl
    · split at h
      · cases h
      · cases h

namespace IdleGate

/-- Waiting for an answer sends nothing, and an answer was given in some line. -/
theorem wire_awaitReply (limit : Limit) (l : σ) (c : Clock) :
    ∃ ts, Wire l ts (awaitReply limit l c).link ∧ sentLines ts = [] ∧
      ∀ reply, (awaitReply limit l c).ending = .done reply →
        ∃ line, .got (.ok line) ∈ ts ∧ IdleReply.ofLine? line = some reply := by
  fun_induction awaitReply limit l c with
  | case1 l c line rest c' hread reply hreply =>
    refine ⟨[.got (.ok line)], .single (moves_of_readBy_done hread), rfl, ?_⟩
    rintro reply' ⟨⟩
    exact ⟨line, List.mem_singleton_self _, hreply⟩
  | case2 l c line rest c' hread hnone ih =>
    obtain ⟨ts, hwire, hsent, hdone⟩ := ih
    refine ⟨.got (.ok line) :: ts, .cons (moves_of_readBy_done hread) hwire, hsent, ?_⟩
    intro reply hreply
    obtain ⟨line', hmem, hline'⟩ := hdone reply hreply
    exact ⟨line', List.mem_cons_of_mem _ hmem, hline'⟩
  | case3 l c e rest c' hread he ih =>
    obtain ⟨ts, hwire, hsent, hdone⟩ := ih
    refine ⟨.got (.error e) :: ts, .cons (moves_of_readBy_failed hread) hwire, hsent, ?_⟩
    intro reply hreply
    obtain ⟨line', hmem, hline'⟩ := hdone reply hreply
    exact ⟨line', List.mem_cons_of_mem _ hmem, hline'⟩
  | case4 l c e rest c' hread he =>
    refine ⟨[.got (.error e)], .single (moves_of_readBy_failed hread), rfl, ?_⟩
    rintro reply ⟨⟩
  | case5 l c rest c' hread =>
    refine ⟨[], ?_, rfl, ?_⟩
    · rw [link_of_readBy_stalled hread]
      exact .nil l
    · rintro reply ⟨⟩

/-- A device was asked a number of times, but not too often. If it was let through, it was asked,
and it gave an idle answer. -/
def Asked (most : Nat) (ts : List Transfer) (through : Bool) : Prop :=
  ∃ k, sentLines ts = List.replicate k idleCommand ∧ k ≤ most ∧
    (through = true → 0 < k ∧
      ∃ line, .got (.ok line) ∈ ts ∧ IdleReply.ofLine? line = some .idle)

/-- A device that was not let through yet was only asked. -/
theorem asked_of_sent {most k : Nat} {ts : List Transfer}
    (hsent : sentLines ts = List.replicate k idleCommand) (hk : k ≤ most) : Asked most ts false :=
  ⟨k, hsent, hk, fun hthrough => absurd hthrough Bool.false_ne_true⟩

theorem asked_nil (most : Nat) : Asked most [] false :=
  asked_of_sent rfl (Nat.zero_le most)

theorem Asked.weaken {most : Nat} {ts : List Transfer} (h : Asked most ts true) (through : Bool) :
    Asked most ts through := by
  obtain ⟨k, hsent, hk, hlet⟩ := h
  exact ⟨k, hsent, hk, fun _ => hlet rfl⟩

/-- One question more, in front of the others. -/
theorem Asked.behind {most : Nat} {ts us : List Transfer} {through : Bool}
    (h : Asked most us through) (hts : sentLines ts = []) :
    Asked (most + 1) (.sent idleCommand :: ts ++ us) through := by
  obtain ⟨k, hus, hk, hlet⟩ := h
  refine ⟨k + 1, ?_, Nat.succ_le_succ hk, fun hthrough => ⟨Nat.succ_pos k, ?_⟩⟩
  · rw [sentLines_append, hus]
    exact congrArg (fun front => idleCommand :: (front ++ List.replicate k idleCommand)) hts
  · obtain ⟨-, line, hmem, hline⟩ := hlet hthrough
    exact ⟨line, List.mem_append_right _ hmem, hline⟩

/-- A device is asked no more often than is left, and let through on an idle answer only. -/
theorem wire_ask (gate : IdleGate) (limit : Limit) (left asked : Nat) (l : σ) (c : Clock) :
    ∃ ts, Wire l ts (gate.ask limit left asked l c).link ∧
      Asked left ts (gate.ask limit left asked l c).ending.isDone := by
  induction left generalizing asked l c with
  | zero => exact ⟨[], .nil l, asked_nil 0⟩
  | succ left ih =>
    rw [ask_succ]
    split
    · rename_i e l' hwrite
      exact ⟨[.sent idleCommand], wire_sent hwrite,
        asked_of_sent rfl (Nat.le_add_left 1 left)⟩
    · rename_i l' hwrite
      obtain ⟨ts, hwire, hsent, hdone⟩ := wire_awaitReply limit l' c
      have hone : Wire l (.sent idleCommand :: ts) (awaitReply limit l' c).link :=
        .cons ⟨_, hwrite⟩ hwire
      have hsentOne : sentLines (.sent idleCommand :: ts) = List.replicate 1 idleCommand :=
        congrArg (idleCommand :: ·) hsent
      -- what has passed is one question, whatever is done about its answer
      -- this question was the last one
      have hlast : Asked (left + 1) (.sent idleCommand :: ts) false :=
        asked_of_sent hsentOne (Nat.le_add_left 1 left)
      -- there are others behind it
      have hmore : ∀ c', ∃ us,
          Wire l us (gate.ask limit left (asked + 1) (awaitReply limit l' c).link c').link ∧
          Asked (left + 1) us
            (gate.ask limit left (asked + 1) (awaitReply limit l' c).link c').ending.isDone := by
        intro c'
        obtain ⟨us, hmore, hasked⟩ := ih (asked + 1) (awaitReply limit l' c).link c'
        exact ⟨_, hone.append hmore, hasked.behind hsent⟩
      dsimp only
      split
      · exact ⟨_, hone, hlast⟩
      · exact ⟨_, hone, hlast⟩
      · rename_i hidle
        obtain ⟨line, hmem, hline⟩ := hdone .idle hidle
        exact ⟨_, hone, 1, hsentOne, Nat.le_add_left 1 left,
          fun _ => ⟨Nat.one_pos, line, List.mem_cons_of_mem _ hmem, hline⟩⟩
      · split
        · exact hmore _
        · split
          · exact hmore _
          · exact ⟨_, hone, hlast⟩

end IdleGate

end Gates

/-! ## In a phase -/

/-- The line is the stop message of a phase. -/
def Bracket.StoppedBy (b : Bracket) (line : String) : Prop :=
  b.keeps line = true ∧ ∃ e, Line.parse line = .ok (.event e) ∧ e.payload = b.stop

/-- What passed over the link of a reader, by its stage. -/
def Spoke (b : Bracket) (ts : List Transfer) : Stage → Prop
  | .ready => sentLines ts = []
  | .reading _ => sentLines ts = [b.start]
  | .hanging => sentLines ts = [b.start]
  | .failed _ => sentLines ts = [b.start]
  | .holding e => sentLines ts = [b.start] ∧ ∃ line,
    [Transfer.sent b.start, .got (.ok line)].Sublist ts ∧ b.keeps line = true ∧
      Line.parse line = .ok (.event e)
  | .finished => sentLines ts = [b.start] ∧ ∃ line,
    [Transfer.sent b.start, .got (.ok line)].Sublist ts ∧ b.StoppedBy line

/-- What passed over a link in a phase: the start command once, or nothing yet. If the phase ran to
its end, the command was sent, and the stop message has come since. -/
def Ran (b : Bracket) (ts : List Transfer) (through : Bool) : Prop :=
  (sentLines ts = [] ∨ sentLines ts = [b.start]) ∧
    (through = true → sentLines ts = [b.start] ∧ ∃ line,
      [Transfer.sent b.start, .got (.ok line)].Sublist ts ∧ b.StoppedBy line)

section Readers

variable {σ : Type} [Link σ] {b : Bracket} {ts : List Transfer} {r : Reader σ}

theorem ran_nil (b : Bracket) : Ran b [] false :=
  ⟨Or.inl rfl, nofun⟩

theorem Spoke.ran {stage : Stage} (h : Spoke b ts stage) : Ran b ts false := by
  refine ⟨?_, nofun⟩
  cases stage with
  | ready => exact Or.inl h
  | reading _ => exact Or.inr h
  | hanging => exact Or.inr h
  | failed _ => exact Or.inr h
  | holding e => exact Or.inr h.1
  | finished => exact Or.inr h.1

theorem Spoke.ran_of_finished (h : Spoke b ts .finished) : Ran b ts true :=
  ⟨Or.inr h.1, fun _ => h⟩

/-- A line that is read has been read since the command was sent. -/
theorem sublist_of_sentLines {line : String} (h : sentLines ts = [b.start]) :
    [Transfer.sent b.start, .got (.ok line)].Sublist (ts ++ [.got (.ok line)]) := by
  have hmem : .sent b.start ∈ ts := by
    have hstart : b.start ∈ sentLines ts := h ▸ List.mem_singleton_self _
    obtain ⟨t, ht, hline⟩ := List.mem_filterMap.1 hstart
    cases t with
    | sent line =>
      cases hline
      exact ht
    | got outcome => cases hline
  exact (List.singleton_sublist.2 hmem).append (List.Sublist.refl _)

theorem Reader.spoke_start (hs : r.stage = .ready) (now : Nat) :
    ∃ us, Wire r.link us (r.start b now).link ∧
      ∀ ts, Spoke b ts r.stage → Spoke b (ts ++ us) (r.start b now).stage := by
  have hsent : ∀ ts, Spoke b ts .ready → sentLines (ts ++ [.sent b.start]) = [b.start] := by
    intro ts hts
    rw [sentLines_append, show sentLines ts = [] from hts]
    rfl
  rw [hs]
  unfold Reader.start
  split
  · rename_i l hwrite
    exact ⟨_, wire_sent hwrite, hsent⟩
  · rename_i e l hwrite
    exact ⟨_, wire_sent hwrite, hsent⟩

theorem Reader.spoke_receive {t : Nat} (hs : r.stage = .reading t) (now : Nat) :
    ∃ us, Wire r.link us (r.receive b now).link ∧
      ∀ ts, Spoke b ts r.stage → Spoke b (ts ++ us) (r.receive b now).stage := by
  have hsent : ∀ ts outcome, Spoke b ts (.reading t) →
      sentLines (ts ++ [.got outcome]) = [b.start] := by
    intro ts outcome hts
    rw [sentLines_append, show sentLines ts = [b.start] from hts]
    rfl
  rw [hs]
  unfold Reader.receive
  split
  · refine ⟨[], .nil _, fun ts hts => ?_⟩
    rw [List.append_nil]
    exact hts
  · rename_i d e l hread
    exact ⟨_, wire_got hread, fun ts hts => hsent ts _ hts⟩
  · rename_i d line l hread
    split
    · exact ⟨_, wire_got hread, fun ts hts => hsent ts _ hts⟩
    · rename_i e hheard
      refine ⟨_, wire_got hread, fun ts hts => ⟨hsent ts _ hts, line, ?_⟩⟩
      exact ⟨sublist_of_sentLines hts, Heard.parse_of_event hheard⟩
    · exact ⟨_, wire_got hread, fun ts hts => hsent ts _ hts⟩

omit [Link σ] in
theorem Reader.spoke_deliver {e : Event} (hs : r.stage = .holding e) (now : Nat)
    (h : Spoke b ts r.stage) : Spoke b ts (Reader.afterDelivery b now e) := by
  rw [hs] at h
  obtain ⟨hsent, line, hsub, hkeeps, hparse⟩ := h
  unfold Reader.afterDelivery
  split
  · rename_i hstop
    exact ⟨hsent, line, hsub, hkeeps, e, hparse, hstop⟩
  · exact hsent

end Readers

namespace Phase

variable {σ : Type} [Link σ] {b : Bracket} {l₀ : Side → σ} {capacity : Nat} {p q : Phase σ}

/-- There is traffic that led to where the readers of a phase are. -/
def Told (b : Bracket) (l₀ : Side → σ) (p : Phase σ) : Prop :=
  ∃ traffic, Carries l₀ traffic (fun s => (p.reader s).link) ∧
    ∀ s, Spoke b (onSide s traffic) (p.reader s).stage

theorem Told.of_reader_eq (h : p.Told b l₀) (hq : q.reader = p.reader) : q.Told b l₀ := by
  unfold Told
  rw [hq]
  exact h

theorem Told.setReader (h : p.Told b l₀) {s : Side} {r : Reader σ} {us : List Transfer}
    (hwire : Wire (p.reader s).link us r.link)
    (hspoke : ∀ ts, Spoke b ts (p.reader s).stage → Spoke b (ts ++ us) r.stage) :
    (p.setReader r s).Told b l₀ := by
  obtain ⟨traffic, hcarries, htold⟩ := h
  refine ⟨traffic ++ us.map (Prod.mk s), hcarries.append (carries_of_wire ?_ ?_), fun t => ?_⟩
  · rw [reader_setReader_self]
    exact hwire
  · intro t ht
    rw [reader_setReader_of_ne _ _ ht]
  · rw [onSide_append]
    by_cases ht : t = s
    · subst ht
      rw [onSide_map_self, reader_setReader_self]
      exact hspoke _ (htold t)
    · rw [onSide_map_of_ne ht, List.append_nil, reader_setReader_of_ne _ _ ht]
      exact htold t

/-- **Every move of a phase adds to the traffic** or leaves it as it is. -/
theorem Told.perform {m : Move} (h : p.Told b l₀) (hm : p.perform? b capacity m = some q) :
    q.Told b l₀ := by
  cases moves_of_perform hm with
  | start hs =>
    obtain ⟨us, hwire, hspoke⟩ := Reader.spoke_start (b := b) hs p.now
    exact h.setReader hwire hspoke
  | receive hs =>
    obtain ⟨us, hwire, hspoke⟩ := Reader.spoke_receive (b := b) hs p.now
    exact h.setReader hwire hspoke
  | @deliver s e hs _ =>
    -- nothing passes over the link while an event is handed over
    have htold : (p.setReader ⟨(p.reader s).link, Reader.afterDelivery b p.now e⟩ s).Told
        b l₀ := by
      refine h.setReader (.nil _) fun ts hts => ?_
      rw [List.append_nil]
      exact Reader.spoke_deliver hs p.now hts
    exact htold.of_reader_eq (reader_enqueue _ _)
  | merge _ => exact h.of_reader_eq (reader_mergeFront _ _ _)
  | wait _ => exact h.of_reader_eq (funext fun s => by cases s <;> rfl)

theorem Told.reaches (h : p.Told b l₀) (hr : Reaches b capacity p q) : q.Told b l₀ := by
  induction hr with
  | refl => exact h
  | tail _ hstep ih =>
    obtain ⟨m, hm⟩ := hstep
    exact ih.perform hm

theorem told_begin {now : Nat} {first second : σ}
    (h : begin? capacity now first second = some p) : p.Told b (Side.pick first second) := by
  obtain rfl := eq_of_begin? h
  refine ⟨[], fun s => ?_, fun s => ?_⟩
  · cases s <;> exact .nil _
  · cases s <;> exact rfl

end Phase

namespace Session

open IdleGate

variable {σ : Type} [Link σ]

theorem carries_waitUntilIdle (gate : IdleGate) (limit : Limit) (s : Session σ) (side : Side) :
    ∃ ts, Carries s.link (ts.map (Prod.mk side)) (s.waitUntilIdle gate limit side).2.link ∧
      Asked gate.maxAttempts ts (s.waitUntilIdle gate limit side).1.isDone := by
  obtain ⟨ts, hwire, hasked⟩ := wire_ask gate limit gate.maxAttempts 0 (s.link side) s.clock
  refine ⟨ts, carries_of_wire ?_ fun t ht => ?_, hasked⟩
  · show Wire (s.link side) ts ((s.after _ side).link side)
    rw [link_after, if_pos rfl]
    exact hwire
  · show (s.after _ side).link t = s.link t
    rw [link_after, if_neg ht]

/-- What passes at a gate at which the second device was not asked. -/
theorem asked_first_only {most : Nat} {ts : List Transfer} (h : Asked most ts false) (side : Side) :
    Asked most (onSide side (ts.map (Prod.mk .first))) false := by
  cases side with
  | first =>
    rw [onSide_map_self]
    exact h
  | second =>
    rw [onSide_map_of_ne (by decide)]
    exact asked_nil most

/-- … and at which it was. -/
theorem asked_both {most : Nat} {ts us : List Transfer} {through : Bool} (h : Asked most ts true)
    (h' : Asked most us through) (side : Side) :
    Asked most (onSide side (ts.map (Prod.mk .first) ++ us.map (Prod.mk .second))) through := by
  rw [onSide_append]
  cases side with
  | first =>
    rw [onSide_map_self, onSide_map_of_ne (by decide), List.append_nil]
    exact h.weaken through
  | second =>
    rw [onSide_map_self, onSide_map_of_ne (by decide), List.nil_append]
    exact h'

/-- **At a gate both devices are asked**, and if it is passed, both gave an idle answer. -/
theorem carries_ensureIdle (gate : IdleGate) (limit : Limit) (s : Session σ) :
    ∃ traffic, Carries s.link traffic (s.ensureIdle gate limit).2.link ∧
      ∀ side, Asked gate.maxAttempts (onSide side traffic)
        (s.ensureIdle gate limit).1.isDone := by
  obtain ⟨ts, hfirst, hasked⟩ := carries_waitUntilIdle gate limit s .first
  unfold ensureIdle
  generalize s.waitUntilIdle gate limit .first = r at hfirst hasked ⊢
  obtain ⟨e, s₁⟩ := r
  cases e with
  | failed e => exact ⟨_, hfirst, asked_first_only hasked⟩
  | stalled => exact ⟨_, hfirst, asked_first_only hasked⟩
  | done n =>
    obtain ⟨us, hsecond, hasked'⟩ := carries_waitUntilIdle gate limit s₁ .second
    dsimp only
    generalize s₁.waitUntilIdle gate limit .second = r at hsecond hasked' ⊢
    obtain ⟨e, s₂⟩ := r
    cases e with
    | failed e => exact ⟨_, hfirst.append hsecond, asked_both hasked hasked'⟩
    | stalled => exact ⟨_, hfirst.append hsecond, asked_both hasked hasked'⟩
    | done m => exact ⟨_, hfirst.append hsecond, asked_both hasked hasked'⟩

theorem carries_runPhase_partial {settings : PhaseSettings} {limit : Limit} {b : Bracket}
    {s s' : Session σ} {e : Ending BenchError (List Event)}
    (h : s.runPhase settings limit b = (e, s')) :
    ∃ traffic, Carries s.link traffic s'.link ∧ ∀ side, Ran b (onSide side traffic) false := by
  cases hp : Phase.begin? (max 1 settings.channelCapacity) s.clock.now s.first s.second with
  | none =>
    simp only [runPhase, hp] at h
    cases h
    exact ⟨[], carries_nil _, fun _ => ran_nil b⟩
  | some p =>
    rw [runPhase_eq hp] at h
    cases h
    obtain ⟨traffic, hcarries, htold⟩ := (Phase.told_begin (b := b) hp).reaches
      (Phase.reached_run (c := s.course p) .refl)
    refine ⟨traffic, fun side => ?_, fun side => (htold side).ran⟩
    cases side with
    | first => exact hcarries .first
    | second => exact hcarries .second

/-- **In a phase each link is sent the start command**, at most once, and if the phase is run to its
end, each link has given away the stop message since. -/
theorem carries_runPhase (settings : PhaseSettings) (limit : Limit) (b : Bracket)
    (s : Session σ) : ∃ traffic, Carries s.link traffic (s.runPhase settings limit b).2.link ∧
      ∀ side, Ran b (onSide side traffic) (s.runPhase settings limit b).1.isDone := by
  rcases hrun : s.runPhase settings limit b with ⟨e, s'⟩
  cases e with
  | done log =>
    obtain ⟨p, q, hp, hreach, hcomplete, -, hfirst, hsecond⟩ := reaches_of_runPhase hrun
    obtain ⟨traffic, hcarries, htold⟩ := (Phase.told_begin hp).reaches hreach
    refine ⟨traffic, fun side => ?_, fun side => ?_⟩
    · cases side with
      | first =>
        show Wire s.first _ s'.first
        rw [hfirst]
        exact hcarries .first
      | second =>
        show Wire s.second _ s'.second
        rw [hsecond]
        exact hcarries .second
    · have hspoke := htold side
      rw [(Phase.isComplete_iff.1 hcomplete).1 side] at hspoke
      exact hspoke.ran_of_finished
  | failed e => exact carries_runPhase_partial hrun
  | stalled => exact carries_runPhase_partial hrun

end Session

end BoardBench
