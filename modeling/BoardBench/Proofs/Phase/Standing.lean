import BoardBench.Proofs.Phase.Scripted
import BoardBench.Proofs.Phase.Timeline

/-!
# Standings — how far a scripted reader is at a given instant

The reader of a scripted link that is on time has made as many reads as its delay allowed.
`Standing` says so for the number of its reads, and everything that can be told from the clock
follows: **a reader never gets past its fault** (`Standing.not_late`), it fails at the instant that
`ScriptedLink.endMs` tells and at no other (`Standing.of_failed`), and a reader that is still at it
has made `ScriptedLink.readsBy` reads (`Standing.eq_readsBy`).

Everything here is stated for a number `n` of reads that is given along with the reader. That number
is the one thing that the history of a reader adds to its link, and to carry it around explicitly is
what keeps these facts linear: an instant is `began + n * delayMs`, and no case has to find out how
many reads there must have been.

`eq_readsBy` goes the other way and tells the number from the clock. For this a read must not end at
the very instant that is looked at: a reader that is just ending one is on either side of it, as the
round has it. Hence the hypothesis `hapart`, which names exactly the reads that could do so.
-/

set_option autoImplicit false

namespace BoardBench

namespace ScriptedLink

variable {b : Bracket} {l : ScriptedLink} {n : Nat} {e : BenchError}

/-- The time after which the last read ends. -/
def endMs (b : Bracket) (l : ScriptedLink) : Nat :=
  l.reads b * l.delayMs

/-- The number of reads that end within some time, if nobody stops the reader. -/
def readsBy (b : Bracket) (t : Nat) (l : ScriptedLink) : Nat :=
  if l.delayMs = 0 then l.reads b else min (t / l.delayMs) (l.reads b)

/-- What a reader fails at, as the error tells it: nothing in time, or an item, which it names with
the port and quotes as it is. -/
inductive Blames (port : String) : Option Incoming → BenchError → Prop
  | timeout : Blames port none (.link (.timeout port 0))
  | nonAscii (text : String) : Blames port (some (.nonAscii text)) (.link (.nonAscii port text))
  | empty : Blames port (some (.line "")) (.emptyLine port)
  | missingFields (text : String) :
      Blames port (some (.line text)) (.line port (.missingFields text))
  | invalidTimestamp (text : String) (reason : Text.NumberError) :
      Blames port (some (.line text)) (.line port (.invalidTimestamp text reason))

theorem length_heardIn_mono {m : Nat} (h : n ≤ m) :
    (l.heardIn b n).length ≤ (l.heardIn b m).length := by
  have htake : l.pending.take n = (l.pending.take m).take n := by
    rw [List.take_take, Nat.min_eq_left h]
  rw [heardIn, heardIn, htake]
  exact ((List.take_sublist n _).filterMap _).length_le

theorem passed_le_reads : l.passed b ≤ l.reads b := by
  unfold reads
  split <;> omega

theorem reads_of_fault (h : l.fault? b = some e) : l.reads b = l.passed b + 1 := by
  unfold reads
  rw [if_neg]
  rintro ⟨hlen, hh⟩
  have hnone : l.pending[l.passed b]? = none := List.getElem?_eq_none (Nat.le_of_eq hlen)
  simp [fault?, hnone, hh] at h

/-- What a reader fails at is no event. -/
theorem heardIn_reads_of_fault (h : l.fault? b = some e) :
    l.heardIn b (l.reads b) = l.heardIn b (l.passed b) := by
  rw [reads_of_fault h]
  cases hi : l.pending[l.passed b]? with
  | none => exact heardIn_succ_of_none hi
  | some i =>
    have hnone : i.event? b l.name = none := by
      simp only [fault?, hi] at h
      unfold Incoming.event?
      split
      · rename_i x hx
        rw [hx] at h
        cases h
      · rfl
    rw [heardIn_succ hi, hnone, Option.toList_none, List.append_nil]

theorem blames_of_parse {port text : String} {err : LineError}
    (h : Line.parse text = .error err) : Blames port (some (.line text)) (.line port err) := by
  simp only [Line.parse] at h
  split at h
  · cases h
  · split at h
    · cases h
      exact .missingFields text
    · split at h
      · cases h
        exact .invalidTimestamp text _
      · cases h

/-- **A fault blames the right item on the right port.** -/
theorem blames_of_fault (h : l.fault? b = some e) :
    Blames l.name l.pending[l.passed b]? e := by
  unfold fault? at h
  -- either the reader stops at an item, which is to blame, or it runs out of items and waits for
  -- the timeout
  split at h
  · rename_i i hi
    rw [hi]
    split at h
    · rename_i e' hh
      cases h
      cases i with
      | nonAscii text =>
        cases hh
        exact .nonAscii text
      | line text =>
        simp only [Incoming.heard, Heard.ofLine] at hh
        split at hh
        · rename_i hempty
          cases hh
          rw [String.isEmpty_iff.1 hempty]
          exact .empty
        · split at hh
          · cases hh
          · split at hh
            · cases hh
            · cases hh
            · rename_i err herr
              cases hh
              exact blames_of_parse herr
    · cases h
  · rename_i hnone
    rw [hnone]
    split at h
    · cases h
    · cases h
      exact .timeout
/-! ## Where a reader stands -/

/-- A reader that has started and is on time: it made `n` reads, as many as fit into the time. -/
structure Standing (b : Bracket) (l : ScriptedLink) (began now n : Nat)
    (r : Reader ScriptedLink) : Prop where
  link : r.link = l.afterReads n
  position : l.Position b n r.stage
  reached : began + n * l.delayMs ≤ now
  reading : ∀ since, r.stage = .reading since →
    since = began + n * l.delayMs ∧ now ≤ began + (n + 1) * l.delayMs
  holding : ∀ x, r.stage = .holding x → began + n * l.delayMs = now
  failed : ∀ x, r.stage = .failed x → began + n * l.delayMs = now

end ScriptedLink

open ScriptedLink in
theorem Progress.standing {b : Bracket} {l₀ : ScriptedLink} {rs : List Reception}
    {es : List Event} {r : Reader ScriptedLink} {began now : Nat} (h : Progress b l₀ rs es r)
    (ht : r.OnTime began now rs) (hs : r.stage ≠ .ready) :
    (l₀.write b.start).Standing b began now rs.length r := by
  obtain ⟨hlink, hwaited, -, hpos⟩ := h.scripted hs
  -- what a reader has waited for is its reads, each of which takes the delay of the link
  have hdelay : (Link.read r.link).delayMs = (l₀.write b.start).delayMs := by
    rw [hlink, delayMs_read_afterReads]
  unfold Reader.OnTime at ht
  rw [hwaited, hdelay] at ht
  refine ⟨hlink, hpos, ?_, ?_, ?_, ?_⟩
  · cases hr : r.stage with
    | ready => exact absurd hr hs
    | reading since =>
      simp only [hr] at ht
      omega
    | hanging => simpa only [hr] using ht
    | holding e =>
      simp only [hr] at ht
      exact Nat.le_of_eq ht
    | finished => simpa only [hr] using ht
    | failed e =>
      simp only [hr] at ht
      exact Nat.le_of_eq ht
  · intro since hr
    simp only [hr] at ht
    rw [Nat.succ_mul]
    omega
  · intro x hr
    simpa only [hr] using ht
  · intro x hr
    simpa only [hr] using ht

namespace ScriptedLink

namespace Standing

variable {b : Bracket} {l : ScriptedLink} {began now n : Nat} {r : Reader ScriptedLink}
  {e : BenchError}

/-- A reader makes no more reads than there are. -/
theorem le_reads (h : l.Standing b began now n r) : n ≤ l.reads b := by
  have hpassed : l.passed b ≤ l.reads b := passed_le_reads
  have hpos := h.position
  cases hs : r.stage with
  | ready =>
    rw [hs] at hpos
    exact hpos.elim
  | reading since =>
    rw [hs] at hpos
    exact Nat.le_trans hpos hpassed
  | hanging =>
    rw [hs] at hpos
    exact Nat.le_of_eq hpos.2.2.symm
  | holding x =>
    rw [hs] at hpos
    obtain ⟨i, k, rfl, hk, hi, -⟩ := hpos
    have hlt : k < l.pending.length := (List.getElem?_eq_some_iff.1 hi).1
    unfold reads
    split <;> omega
  | finished =>
    rw [hs] at hpos
    exact Nat.le_of_eq hpos.2.2.symm
  | failed x =>
    rw [hs] at hpos
    exact Nat.le_of_eq hpos.2.2.symm

/-- **No reader gets past its fault.** -/
theorem not_late (h : l.Standing b began now n r) (hf : l.fault? b = some e) :
    now ≤ began + l.endMs b := by
  rw [endMs, reads_of_fault hf]
  have hpos := h.position
  -- a reader that has a fault before it can neither be through nor hang, and in the other stages it
  -- has made no more reads than lead to the fault
  cases hs : r.stage with
  | ready =>
    rw [hs] at hpos
    exact hpos.elim
  | reading since =>
    rw [hs] at hpos
    have := (h.reading since hs).2
    have := Nat.mul_le_mul_right l.delayMs (Nat.add_le_add_right hpos 1)
    omega
  | hanging =>
    rw [hs, Position, hf] at hpos
    cases hpos.2.1
  | holding x =>
    rw [hs] at hpos
    obtain ⟨i, k, rfl, hk, -, -⟩ := hpos
    have := h.holding x hs
    have := Nat.mul_le_mul_right l.delayMs (Nat.add_le_add_right hk 1)
    omega
  | finished =>
    rw [hs, Position, hf] at hpos
    cases hpos.2.1
  | failed x =>
    rw [hs] at hpos
    have := h.failed x hs
    rw [hpos.1] at this
    omega

/-- A reader that failed did so at its fault, right now. -/
theorem of_failed (h : l.Standing b began now n r) (hs : r.stage = .failed e) :
    l.fault? b = some e ∧ now = began + l.endMs b ∧ r.link = l.afterReads (l.passed b + 1) := by
  have hpos := h.position
  rw [hs] at hpos
  obtain ⟨rfl, hf, hreads⟩ := hpos
  exact ⟨hf, by rw [endMs, hreads]; exact (h.failed e hs).symm, h.link⟩

/-- A reader that waits and is to fail is due before that. -/
theorem due_of_fault (h : l.Standing b began now n r) (hw : r.Waits now)
    (hf : l.fault? b = some e) : ∃ u, r.due? = some u ∧ now < u ∧ u ≤ began + l.endMs b := by
  have hpos := h.position
  unfold Reader.Waits at hw
  cases hs : r.stage with
  | ready => simp only [hs] at hw
  | reading since =>
    rw [hs] at hpos
    simp only [hs] at hw
    have hdelay : (Link.read r.link).delayMs = l.delayMs := by
      rw [h.link, delayMs_read_afterReads]
    refine ⟨since + l.delayMs, by simp [Reader.due?, hs, hdelay], by rwa [hdelay] at hw, ?_⟩
    have := (h.reading since hs).1
    have := Nat.mul_le_mul_right l.delayMs (Nat.add_le_add_right hpos 1)
    rw [Nat.succ_mul n] at this
    rw [endMs, reads_of_fault hf]
    omega
  | hanging =>
    rw [hs, Position, hf] at hpos
    cases hpos.2.1
  | holding x => simp only [hs] at hw
  | finished =>
    rw [hs, Position, hf] at hpos
    cases hpos.2.1
  | failed x => simp only [hs] at hw

/-- A reader that is through has made all of its reads, however long ago. -/
theorem eq_readsBy_of_reads (h : l.Standing b began now n r) (hreads : l.reads b = n) :
    n = l.readsBy b (now - began) := by
  have hreached := h.reached
  rw [readsBy, hreads]
  split
  · rfl
  · rename_i hd
    rw [Nat.min_eq_right]
    exact (Nat.le_div_iff_mul_le (Nat.pos_of_ne_zero hd)).2 (by omega)

/-- A reader that is not just ending a read has made as many reads as the time allows. -/
theorem eq_readsBy (h : l.Standing b began now n r)
    (hlong : began < now ∨ 0 < l.delayMs)
    (hapart : ∀ j ≤ l.reads b, j * l.delayMs = now - began → now = began) :
    n = l.readsBy b (now - began) := by
  have hle := h.le_reads
  have hreached := h.reached
  have hpos := h.position
  have hzero : l.delayMs = 0 → now = began + n * l.delayMs → False := by
    intro hd hnow
    rw [hd] at hnow hlong
    omega
  cases hs : r.stage with
  | ready =>
    rw [hs] at hpos
    exact hpos.elim
  | reading since =>
    have hnow := (h.reading since hs).2
    have hd : l.delayMs ≠ 0 := by
      intro hd
      rw [hd] at hnow hreached
      exact hzero hd (by rw [hd]; omega)
    by_cases hreads : l.reads b = n
    · exact h.eq_readsBy_of_reads hreads
    · -- the next read ends, and so not at this instant
      have hlt : now < began + (n + 1) * l.delayMs := by
        refine Nat.lt_of_le_of_ne hnow fun heq => ?_
        have := hapart (n + 1) (by omega) (by omega)
        rw [Nat.succ_mul] at heq
        omega
      rw [readsBy, if_neg hd, Nat.min_eq_left]
      · exact (Nat.div_eq_of_lt_le (by omega) (by omega)).symm
      · have : (now - began) / l.delayMs < n + 1 :=
          (Nat.div_lt_iff_lt_mul (Nat.pos_of_ne_zero hd)).2 (by omega)
        omega
  | hanging =>
    rw [hs] at hpos
    exact h.eq_readsBy_of_reads hpos.2.2
  | holding x =>
    rw [hs] at hpos
    obtain ⟨i, k, rfl, -, -, -⟩ := hpos
    have hnow := h.holding x hs
    have hbegan := hapart (k + 1) hle (by omega)
    have hd : l.delayMs = 0 := by
      rw [Nat.succ_mul] at hnow
      omega
    exact (hzero hd hnow.symm).elim
  | finished =>
    rw [hs] at hpos
    exact h.eq_readsBy_of_reads hpos.2.2
  | failed x =>
    rw [hs] at hpos
    exact h.eq_readsBy_of_reads hpos.2.2

end Standing

end ScriptedLink

end BoardBench
