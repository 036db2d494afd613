import BoardBench.Proofs.Evaluation.Breakdown
import Mathlib.Data.UInt

/-!
# Findings — the spacing of events is judged by the true times between them

Time stamps are unsigned 64-bit words and are subtracted as signed ones. So a stamp from the upper
half of the range counts as a negative number, and the subtraction may wrap around; both mistakes
have the size of the range, and they cancel out. **As long as the true time between neighbours fits
into a signed word, it is the one that is compared with the bounds, and the one that a violation
cites** (`Diagnostic.message_spacing`, `spacing_is_judged_by_true_times`): wherever in the range the
two stamps are, and also if the clock went back.

The wrapped difference appears in two places, in the comparison and in the text of a violation, and
each of them is brought to the true one by the same equation (`elapsed_eq_gap`). The condition is on
neighbours in the list that is checked, and it does not bound the stamps themselves: they may be
anywhere in their range, and on both sides of its middle.
-/

set_option autoImplicit false

namespace BoardBench

/-- The wording for two neighbours that are not the right time apart, with the true time from one
to the other. The position is that of the later one. -/
def spacingLine (channel what : String) (b : Bounds) (position : Nat) (previous current : Event) :
    String :=
  channel ++ ": " ++ what ++ " spacing of " ++ Text.signedDecimal (previous.gap current)
    ++ "ms at index " ++ Text.decimal position ++ " not in interval ["
    ++ Text.signedDecimal b.min ++ ", " ++ Text.signedDecimal b.max
    ++ "] ms (previous: " ++ Text.decimal previous.timeMs.toNat ++ "ms, current: "
    ++ Text.decimal current.timeMs.toNat ++ "ms)"

variable {channel what : String} {b : Bounds} {events : List Event}

/-- **A violation cites the true time**, and both stamps. -/
theorem Diagnostic.message_spacing {position : Nat} {previous current : Event}
    (h : previous.Near current) :
    (Diagnostic.spacing channel what position b previous.timeMs current.timeMs).message =
      spacingLine channel what b position previous current := by
  rw [spacingLine, ← elapsed_eq_gap h]
  rfl

theorem near_of_isChain {i : Nat} {x y : Event} (h : events.IsChain Event.Near)
    (hx : events[i]? = some x) (hy : events[i + 1]? = some y) : x.Near y := by
  obtain ⟨hi, rfl⟩ := List.getElem?_eq_some_iff.1 hx
  obtain ⟨hj, rfl⟩ := List.getElem?_eq_some_iff.1 hy
  exact List.isChain_iff_getElem.1 h i hj

/-- What is to be said of an event and the one after it, if the true time between them is out of
bounds. -/
def CitesGap (channel what : String) (b : Bounds) (events : List Event) (i : Nat)
    (d : Diagnostic) : Prop :=
  ∃ x y, events[i]? = some x ∧ events[i + 1]? = some y ∧ ¬b.Spaced x y ∧
    d = .spacing channel what (i + 1) b x.timeMs y.timeMs ∧
    d.message = spacingLine channel what b (i + 1) x y

theorem outOfStep_iff_citesGap {i : Nat} {d : Diagnostic} (h : events.IsChain Event.Near) :
    OutOfStep channel what b events i d ↔ CitesGap channel what b events i d := by
  refine exists_congr fun x => exists_congr fun y => ?_
  refine and_congr_right fun hx => and_congr_right fun hy => and_congr_right fun _ => ?_
  refine (and_iff_left_of_imp ?_).symm
  rintro rfl
  exact Diagnostic.message_spacing (near_of_isChain h hx hy)

/-- **The spacing of events is judged by the true times between them**, if these fit into a signed
word. The check succeeds exactly if all of them are within bounds. What it adds to the findings is
one violation for each pair of neighbours that is not the right time apart, in the order of the
events, which names the later one by its position and cites the true time and both stamps. -/
theorem spacing_is_judged_by_true_times (channel what : String) (b : Bounds) (events : List Event)
    (f : Findings) (h : events.IsChain Event.Near) :
    ((f.checkSpacing channel what b events).1 = true ↔ events.IsChain b.Spaced) ∧
      (f.checkSpacing channel what b events).2.notes = f.notes ∧
      ∃ violations,
        (f.checkSpacing channel what b events).2.diagnostics = f.diagnostics ++ violations ∧
        OnePerPosition (CitesGap channel what b events) violations := by
  refine ⟨?_, rfl, spacingDiagnostics channel what b events, rfl, ?_⟩
  · rw [Findings.checkSpacing, Findings.check_fst, List.isEmpty_iff,
      spacingDiagnostics_eq_nil_iff, isChain_apart_iff h]
  · exact (onePerPosition_spacing h).congr fun i d => outOfStep_iff_citesGap h

/-- Stamps on both sides of the middle of the range, up and down. -/
def acrossTheMiddle : List Event := [
    ⟨2 ^ 63 - 10, .inf, "sut", "tick"⟩,
    ⟨2 ^ 63 - 4, .inf, "sut", "tick"⟩,
    ⟨2 ^ 63 + 4, .inf, "sut", "tick"⟩,
    ⟨2 ^ 63 + 14, .inf, "sut", "tick"⟩,
    ⟨2 ^ 63 - 1, .inf, "sut", "tick"⟩]

theorem acrossTheMiddle_is_judged :
    acrossTheMiddle.IsChain Event.Near ∧
      (({} : Findings).checkSpacing "Sut" "tick" ⟨-15, 10⟩ acrossTheMiddle).1 = true ∧
      (({} : Findings).checkSpacing "Sut" "tick" ⟨0, 9⟩ acrossTheMiddle).1 = false ∧
      (({} : Findings).checkSpacing "Sut" "tick" ⟨0, 9⟩ acrossTheMiddle).2.diagnostics.map
          (·.message) =
        ["Sut: tick spacing of 10ms at index 3 not in interval [0, 9] ms "
            ++ "(previous: 9223372036854775812ms, current: 9223372036854775822ms)",
          "Sut: tick spacing of -15ms at index 4 not in interval [0, 9] ms "
            ++ "(previous: 9223372036854775822ms, current: 9223372036854775807ms)"] := by
  have hnear : acrossTheMiddle.IsChain Event.Near := by decide +kernel
  obtain ⟨hwide, -⟩ :=
    spacing_is_judged_by_true_times "Sut" "tick" ⟨-15, 10⟩ acrossTheMiddle {} hnear
  obtain ⟨htight, -⟩ :=
    spacing_is_judged_by_true_times "Sut" "tick" ⟨0, 9⟩ acrossTheMiddle {} hnear
  refine ⟨hnear, hwide.2 (by decide +kernel), Bool.eq_false_iff.2 fun hok => ?_,
    by decide +kernel⟩
  exact absurd (htight.1 hok) (by decide +kernel)

end BoardBench
