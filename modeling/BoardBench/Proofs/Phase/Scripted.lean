import BoardBench.Link.Scripted
import BoardBench.Proofs.Phase.Progress
import BoardBench.Proofs.Sequence

/-!
# Scripted readers — what becomes of a reader whose queue is known

The reader of a scripted link takes items off a queue that is fixed once the start command is sent.
It goes on behind the items that it passes, and the first one that it does not pass settles what
becomes of it: the stop message, a fault, or an empty queue, on which it fails or hangs. So all is
known about it once the number of its reads is: **its link, the time it waited, the events it heard
and the stages it can be in** (`Progress.scripted`).

`passed` counts items and `reads` counts reads, and the two differ by the read that ends a reader:
one that stops or fails does so by one read more than it has passed items. It is the reads that take
time and that the link is told by (`afterReads`), and the items that are told of a queue. A reader
that hangs makes no further read, so there the numbers are the same.

`Position` lists for each stage how many reads lead there. It asks for no more than can be told from
the queue, and nothing of the instants, so that it serves both the phases in virtual time and those
under any schedule.
-/

set_option autoImplicit false

namespace BoardBench

/-! ## Items -/

namespace Incoming

/-- What a reader hears in an item. One that a port would reject is a failure of the link. -/
def heard (b : Bracket) (port : String) : Incoming → Heard
  | .line text => Heard.ofLine b port text
  | .nonAscii text => .fault (.link (.nonAscii port text))

/-- A reader goes on behind the item: it is neither a fault nor the stop message. -/
def isPassed (b : Bracket) (port : String) (i : Incoming) : Bool :=
  match i.heard b port with
  | .skipped => true
  | .event e => e.payload != b.stop
  | .fault _ => false

def event? (b : Bracket) (port : String) (i : Incoming) : Option Event :=
  match i.heard b port with
  | .event e => some e
  | _ => none

end Incoming

namespace ScriptedLink

/-! ## A queue and a reader -/

/-- The number of items that a reader goes on behind. -/
def passed (b : Bracket) (l : ScriptedLink) : Nat :=
  (l.pending.takeWhile (·.isPassed b l.name)).length

/-- The events that a reader hears in its first `n` reads. -/
def heardIn (b : Bracket) (n : Nat) (l : ScriptedLink) : List Event :=
  (l.pending.take n).filterMap (·.event? b l.name)

/-- How a reader fails at what comes behind the items that it passes, if it does. -/
def fault? (b : Bracket) (l : ScriptedLink) : Option BenchError :=
  match l.pending[l.passed b]? with
  | some i =>
    match i.heard b l.name with
    | .fault e => some e
    | _ => none
  | none => if l.hangs then none else some (.link (.timeout l.name 0))

/-- The number of reads that a reader brings to an end, if nobody stops it. -/
def reads (b : Bracket) (l : ScriptedLink) : Nat :=
  if l.pending.length = l.passed b ∧ l.hangs then l.passed b else l.passed b + 1

/-- The link behind `n` reads. -/
def afterReads (n : Nat) (l : ScriptedLink) : ScriptedLink :=
  { l with pending := l.pending.drop n }

theorem read_afterReads (n : Nat) (l : ScriptedLink) :
    Link.read (l.afterReads n) =
      match l.pending[n]? with
      | some (.line text) => .after l.delayMs (.ok text) (l.afterReads (n + 1))
      | some (.nonAscii text) =>
        .after l.delayMs (.error (.nonAscii l.name text)) (l.afterReads (n + 1))
      | none =>
        if l.hangs then .never l.delayMs
        else .after l.delayMs (.error (.timeout l.name 0)) (l.afterReads (n + 1)) := by
  show (l.afterReads n).read = _
  cases hi : l.pending[n]? with
  | none =>
    have hn : l.pending.length ≤ n := List.getElem?_eq_none_iff.1 hi
    have hnil : l.pending.drop n = [] := List.drop_eq_nil_of_le hn
    have hnil' : l.pending.drop (n + 1) = [] := List.drop_eq_nil_of_le (Nat.le_succ_of_le hn)
    simp only [read, afterReads, hnil, hnil']
  | some i =>
    obtain ⟨hlt, hget⟩ := List.getElem?_eq_some_iff.1 hi
    have hdrop : l.pending.drop n = i :: l.pending.drop (n + 1) := by
      rw [List.drop_eq_getElem_cons hlt, hget]
    cases i <;> simp only [read, afterReads, hdrop]

theorem delayMs_read_afterReads (n : Nat) (l : ScriptedLink) :
    (Link.read (l.afterReads n)).delayMs = l.delayMs := by
  rw [read_afterReads]
  split
  · rfl
  · rfl
  · split <;> rfl

theorem heardIn_succ {b : Bracket} {l : ScriptedLink} {n : Nat} {i : Incoming}
    (hi : l.pending[n]? = some i) :
    l.heardIn b (n + 1) = l.heardIn b n ++ (i.event? b l.name).toList := by
  simp only [heardIn, List.take_add_one, hi, List.filterMap_append]
  cases h : i.event? b l.name <;> simp [h]

theorem heardIn_succ_of_none {b : Bracket} {l : ScriptedLink} {n : Nat}
    (hi : l.pending[n]? = none) : l.heardIn b (n + 1) = l.heardIn b n := by
  have hall := List.getElem?_eq_none_iff.1 hi
  rw [heardIn, heardIn, List.take_of_length_le hall,
    List.take_of_length_le (Nat.le_succ_of_le hall)]

/-- Where a reader can be once it has started and made `n` reads. -/
def Position (b : Bracket) (l : ScriptedLink) (n : Nat) : Stage → Prop
  | .ready => False
  | .reading _ => n ≤ l.passed b
  | .hanging => n = l.passed b ∧ l.fault? b = none ∧ l.reads b = n
  | .holding e => ∃ i k, n = k + 1 ∧ k ≤ l.passed b ∧ l.pending[k]? = some i ∧
      i.heard b l.name = .event e
  | .finished => n = l.passed b + 1 ∧ l.fault? b = none ∧ l.reads b = n
  | .failed e => n = l.passed b + 1 ∧ l.fault? b = some e ∧ l.reads b = n

variable {b : Bracket} {l : ScriptedLink} {n : Nat} {i : Incoming}

/-- An item that is not passed ends the reading. -/
theorem end_of_not_passed (hn : n ≤ l.passed b) (hi : l.pending[n]? = some i)
    (hp : i.isPassed b l.name = false) :
    n = l.passed b ∧ l.pending[l.passed b]? = some i ∧ l.reads b = n + 1 := by
  rcases getElem?_of_le_takeWhile hn with ⟨x, hx, hpx, -⟩ | ⟨x, hx, -, heq⟩ | ⟨hx, -, -⟩
  · rw [hi] at hx
    cases hx
    rw [hp] at hpx
    cases hpx
  · have heq' : n = l.passed b := heq
    refine ⟨heq', heq' ▸ hi, ?_⟩
    have hlt : n < l.pending.length := (List.getElem?_eq_some_iff.1 hi).1
    rw [reads, if_neg (by omega), heq']
  · rw [hi] at hx
    cases hx

theorem le_passed_of_passed (hn : n ≤ l.passed b) (hi : l.pending[n]? = some i)
    (hp : i.isPassed b l.name = true) : n + 1 ≤ l.passed b := by
  rcases getElem?_of_le_takeWhile hn with ⟨x, -, -, hle⟩ | ⟨x, hx, hpx, -⟩ | ⟨hx, -, -⟩
  · exact hle
  · rw [hi] at hx
    cases hx
    rw [hp] at hpx
    cases hpx
  · rw [hi] at hx
    cases hx

theorem end_of_empty (hn : n ≤ l.passed b) (hi : l.pending[n]? = none) :
    n = l.passed b ∧ l.pending.length = l.passed b := by
  rcases getElem?_of_le_takeWhile hn with ⟨x, hx, -, -⟩ | ⟨x, hx, -, -⟩ | ⟨-, heq, hlen⟩
  · rw [hi] at hx
    cases hx
  · rw [hi] at hx
    cases hx
  · exact ⟨heq, hlen ▸ heq⟩

/-- A read that brings a line found it in the queue. -/
theorem line_of_read {d : Nat} {line : String} {l' : ScriptedLink}
    (hr : Link.read (l.afterReads n) = .after d (.ok line) l') :
    d = l.delayMs ∧ l' = l.afterReads (n + 1) ∧ l.pending[n]? = some (.line line) := by
  rw [read_afterReads] at hr
  split at hr
  · rename_i text hi
    cases hr
    exact ⟨rfl, rfl, hi⟩
  · cases hr
  · split at hr <;> cases hr

/-- A read that fails found a line that a port would reject, or none in time. -/
theorem error_of_read {d : Nat} {e : LinkError} {l' : ScriptedLink}
    (hr : Link.read (l.afterReads n) = .after d (.error e) l') :
    d = l.delayMs ∧ l' = l.afterReads (n + 1) ∧
      ((∃ text, e = .nonAscii l.name text ∧ l.pending[n]? = some (.nonAscii text)) ∨
        e = .timeout l.name 0 ∧ l.pending[n]? = none ∧ l.hangs = false) := by
  rw [read_afterReads] at hr
  split at hr
  · cases hr
  · rename_i text hi
    cases hr
    exact ⟨rfl, rfl, Or.inl ⟨text, rfl, hi⟩⟩
  · rename_i hi
    split at hr
    · cases hr
    · rename_i hh
      cases hr
      exact ⟨rfl, rfl, Or.inr ⟨rfl, hi, by simpa using hh⟩⟩

theorem hangs_of_read {d : Nat} (hr : Link.read (l.afterReads n) = .never d) :
    l.pending[n]? = none ∧ l.hangs = true := by
  rw [read_afterReads] at hr
  split at hr
  · cases hr
  · cases hr
  · rename_i hi
    split at hr
    · exact ⟨hi, ‹_›⟩
    · cases hr

/-- A fault in the item behind those that are passed. -/
theorem fault_of_heard {e : BenchError} (hn : n ≤ l.passed b) (hi : l.pending[n]? = some i)
    (hh : i.heard b l.name = .fault e) : l.Position b (n + 1) (.failed e) := by
  obtain ⟨rfl, hpend, hreads⟩ := end_of_not_passed hn hi (by simp [Incoming.isPassed, hh])
  exact ⟨rfl, by simp [fault?, hpend, hh], hreads⟩

/-- What is known of a reader that has started, from the number of its reads. -/
structure Tells (b : Bracket) (l : ScriptedLink) (rs : List Reception) (es : List Event)
    (r : Reader ScriptedLink) : Prop where
  link : r.link = l.afterReads rs.length
  waited : Reception.waited rs = rs.length * l.delayMs
  heard : es = l.heardIn b rs.length
  position : l.Position b rs.length r.stage

/-- One more read, which takes an item off the queue. -/
theorem Tells.next {rs : List Reception} {es : List Event} {m : ScriptedLink} {t : Nat} {s : Stage}
    (h : l.Tells b rs es ⟨m, .reading t⟩) (hi : l.pending[rs.length]? = some i)
    (outcome : Except LinkError String) (hs : l.Position b (rs.length + 1) s) :
    l.Tells b (rs ++ [⟨l.delayMs, outcome⟩]) (es ++ (i.event? b l.name).toList)
      ⟨l.afterReads (rs.length + 1), s⟩ := by
  have hlength : (rs ++ [(⟨l.delayMs, outcome⟩ : Reception)]).length = rs.length + 1 :=
    List.length_append
  refine ⟨by rw [hlength], ?_, ?_, ?_⟩
  · rw [Reception.waited_append, h.waited, Reception.waited_singleton, hlength, Nat.succ_mul]
  · rw [hlength, heardIn_succ hi, h.heard]
  · rw [hlength]
    exact hs

/-- The same, of an item that is not an event. -/
theorem Tells.next_of_no_event {rs : List Reception} {es : List Event} {m : ScriptedLink} {t : Nat}
    {s : Stage} (h : l.Tells b rs es ⟨m, .reading t⟩) (hi : l.pending[rs.length]? = some i)
    (he : i.event? b l.name = none) (outcome : Except LinkError String)
    (hs : l.Position b (rs.length + 1) s) :
    l.Tells b (rs ++ [⟨l.delayMs, outcome⟩]) es ⟨l.afterReads (rs.length + 1), s⟩ := by
  have hnext := h.next hi outcome hs
  rwa [he, Option.toList_none, List.append_nil] at hnext

/-- A read for which there was nothing, and which was given up. -/
theorem Tells.timeout {rs : List Reception} {es : List Event} {m : ScriptedLink} {t : Nat}
    (h : l.Tells b rs es ⟨m, .reading t⟩) (hi : l.pending[rs.length]? = none)
    (hh : l.hangs = false) (outcome : Except LinkError String) :
    l.Tells b (rs ++ [⟨l.delayMs, outcome⟩]) es
      ⟨l.afterReads (rs.length + 1), .failed (.link (.timeout l.name 0))⟩ := by
  obtain ⟨heq, hlen⟩ := end_of_empty h.position hi
  have hlength : (rs ++ [(⟨l.delayMs, outcome⟩ : Reception)]).length = rs.length + 1 :=
    List.length_append
  refine ⟨by rw [hlength], ?_, ?_, ?_⟩
  · rw [Reception.waited_append, h.waited, Reception.waited_singleton, hlength, Nat.succ_mul]
  · rw [hlength, heardIn_succ_of_none hi]
    exact h.heard
  · rw [hlength]
    refine ⟨by rw [heq], ?_, ?_⟩
    · simp [fault?, ← heq, hi, hh]
    · rw [reads, if_neg (by simp [hh]), heq]

end ScriptedLink

open ScriptedLink in
/-- **All is known about a reader of a scripted link once the number of its reads is.** -/
theorem Progress.scripted {b : Bracket} {l₀ : ScriptedLink} {rs : List Reception}
    {es : List Event} {r : Reader ScriptedLink} (h : Progress b l₀ rs es r)
    (hs : r.stage ≠ .ready) : (l₀.write b.start).Tells b rs es r := by
  -- the history begins with the command, and all the rest is about the link behind it
  generalize hl : l₀.write b.start = l
  have hwrite : Link.write b.start l₀ = (.ok (), l) := hl ▸ rfl
  induction h with
  | ready => exact absurd rfl hs
  | refused hw =>
    rw [hwrite] at hw
    cases hw
  | started t hw =>
    rw [hwrite] at hw
    cases hw
    exact ⟨rfl, by simp, rfl, Nat.zero_le _⟩
  | hung hp hr ih =>
    obtain ⟨hlink, hwaited, hheard, hpos⟩ := ih (by simp)
    obtain rfl := hlink
    obtain ⟨hi, hh⟩ := hangs_of_read hr
    obtain ⟨heq, hlen⟩ := end_of_empty hpos hi
    refine ⟨rfl, hwaited, hheard, heq, ?_, ?_⟩
    · simp [fault?, ← heq, hi, hh]
    · rw [reads, if_pos ⟨hlen, hh⟩, heq]
  | @broken rs es m l' t d e hp hr ih =>
    have htells := ih (by simp)
    obtain rfl : m = l.afterReads rs.length := htells.link
    obtain ⟨rfl, rfl, hcase⟩ := error_of_read hr
    rcases hcase with ⟨text, rfl, hi⟩ | ⟨rfl, hi, hh⟩
    · exact htells.next_of_no_event hi rfl _ (fault_of_heard htells.position hi rfl)
    · exact htells.timeout hi hh _
  | @skipped rs es m l' t d line hp hr hh t' ih =>
    have htells := ih (by simp)
    obtain rfl : m = l.afterReads rs.length := htells.link
    obtain ⟨rfl, rfl, hi⟩ := line_of_read hr
    have hskip : Incoming.heard b l.name (.line line) = .skipped := hh
    refine htells.next_of_no_event hi (by simp [Incoming.event?, hskip]) _ ?_
    exact le_passed_of_passed htells.position hi (by simp [Incoming.isPassed, hskip])
  | @heard rs es m l' t d line e hp hr hh ih =>
    have htells := ih (by simp)
    obtain rfl : m = l.afterReads rs.length := htells.link
    obtain ⟨rfl, rfl, hi⟩ := line_of_read hr
    have hevent : Incoming.heard b l.name (.line line) = .event e := hh
    have hsome : Incoming.event? b l.name (.line line) = some e := by
      simp [Incoming.event?, hevent]
    have hnext := htells.next hi (.ok line) (s := .holding e)
      ⟨_, _, rfl, htells.position, hi, hevent⟩
    rwa [hsome] at hnext
  | @faulty rs es m l' t d line e hp hr hh ih =>
    have htells := ih (by simp)
    obtain rfl : m = l.afterReads rs.length := htells.link
    obtain ⟨rfl, rfl, hi⟩ := line_of_read hr
    have hfault : Incoming.heard b l.name (.line line) = .fault e := hh
    refine htells.next_of_no_event hi (by simp [Incoming.event?, hfault]) _ ?_
    exact fault_of_heard htells.position hi hfault
  -- a delivery is no read: the item that was held is passed, or it is the stop message
  | delivered hp he t ih =>
    obtain ⟨hlink, hwaited, hheard, i, k, hk, hle, hi, hh⟩ := ih (by simp)
    refine ⟨hlink, hwaited, hheard, ?_⟩
    rw [hk]
    exact le_passed_of_passed hle hi (by simp [Incoming.isPassed, hh, he])
  | stopped hp he ih =>
    obtain ⟨hlink, hwaited, hheard, i, k, hk, hle, hi, hh⟩ := ih (by simp)
    obtain ⟨rfl, hpend, hreads⟩ := end_of_not_passed hle hi (by simp [Incoming.isPassed, hh, he])
    refine ⟨hlink, hwaited, hheard, hk, ?_, hk ▸ hreads⟩
    simp [fault?, hpend, hh]

end BoardBench
