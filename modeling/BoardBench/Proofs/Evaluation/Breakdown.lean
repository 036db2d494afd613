import BoardBench.Proofs.Evaluation.Verdict
import Mathlib.Data.List.Forall2
import Mathlib.Data.List.Nodup

/-!
# Breakdowns — what is reported, channel by channel

That an evaluation finds nothing is one thing; what it lists when it finds something is another. A
list of violations comes apart by the channels that they are about, and what is said of one channel
comes apart by positions: **`OnePerPosition P ds` says that `ds` has one entry for each position at
which there is something to say, in order**, and nothing else. It is the form of every check that
goes through a sequence (`onePerPosition_filterMap`). Where there may be several things to say of
one position, `PieceByPiece n P ds` says that `ds` has a piece for each of the first `n` positions,
in order.

The time between two events is what the device clocks say as long as it fits into a signed 64-bit
number (`Event.Near`). Bounds are then about that time and not about its wrapped form
(`isChain_apart_iff`).

What a report says of a channel is found by a filter on the channel that violations are about
(`diagnosticsOn`), and not by where in the report it stands. The order in which channels are gone
through differs from one subsystem to the next, and depends on the log, while the order within a
channel does not. `AllOn` is what the filter needs: each check speaks of no channel but its own.

Positions are counted by numbering the list and not by recursion on it, since that is how the checks
do it and how a reader counts them. The number of the first entry is left open in the inductions
(`zipIdx` may start anywhere).
-/

set_option autoImplicit false

namespace BoardBench

/-! ## Channels -/

/-- What the channel of an event is, in terms of bytes: the front of the payload that is this wide,
or the whole payload if no front is. -/
def Event.HasChannel (width : Nat) (e : Event) (c : String) : Prop :=
  (c.toList <+: e.payload.toList ∧ (Text.encode c).length = width) ∨
    (c = e.payload ∧ ∀ front : String, front.toList <+: e.payload.toList →
      (Text.encode front).length ≠ width)

theorem Text.firstBytes_eq_some {n : Nat} {cs front : List Char}
    (h : firstBytes n cs = some front) :
    front <+: cs ∧ (front.flatMap String.utf8EncodeChar).length = n := by
  induction cs generalizing n front with
  | nil =>
    cases n with
    | zero =>
      rw [firstBytes] at h
      cases h
      exact ⟨List.nil_prefix, rfl⟩
    | succ n =>
      rw [firstBytes] at h
      cases h
  | cons c cs ih =>
    cases n with
    | zero =>
      rw [firstBytes] at h
      cases h
      exact ⟨List.nil_prefix, rfl⟩
    | succ n =>
      rw [firstBytes] at h
      split at h
      · rename_i hle
        obtain ⟨tail, htail, rfl⟩ := Option.map_eq_some_iff.1 h
        obtain ⟨hstarts, hsum⟩ := ih htail
        refine ⟨(List.prefix_cons_inj c).2 hstarts, ?_⟩
        rw [List.flatMap_cons, List.length_append, String.length_utf8EncodeChar, hsum]
        omega
      · cases h

theorem Text.firstBytes_eq_none {n : Nat} {cs front : List Char} (h : firstBytes n cs = none)
    (hfront : front <+: cs) : (front.flatMap String.utf8EncodeChar).length ≠ n := by
  induction cs generalizing n front with
  | nil =>
    cases n with
    | zero =>
      rw [firstBytes] at h
      cases h
    | succ n =>
      rw [List.prefix_nil.1 hfront]
      exact Nat.succ_ne_zero n ∘ Eq.symm
  | cons c cs ih =>
    cases n with
    | zero =>
      rw [firstBytes] at h
      cases h
    | succ n =>
      cases front with
      | nil => exact Nat.succ_ne_zero n ∘ Eq.symm
      | cons d front =>
        obtain ⟨rfl, hstarts⟩ := List.cons_prefix_cons.1 hfront
        rw [firstBytes] at h
        rw [List.flatMap_cons, List.length_append, String.length_utf8EncodeChar]
        split at h
        · have := ih (Option.map_eq_none_iff.1 h) hstarts
          omega
        · omega

/-- **The channel of an event is the front of its payload, if there is one of that width.** -/
theorem Event.hasChannel_channel (width : Nat) (e : Event) :
    e.HasChannel width (e.channel width) := by
  unfold Event.channel
  split
  · rename_i front hfront
    obtain ⟨hstarts, hsum⟩ := Text.firstBytes_eq_some hfront
    left
    rw [Text.encode, String.toList_ofList]
    exact ⟨hstarts, hsum⟩
  · rename_i hnone
    right
    exact ⟨rfl, fun front hfront => Text.firstBytes_eq_none hnone hfront⟩

/-- Each channel is gone through once. -/
theorem nodup_channels (width : Nat) (categories : List (List Event)) :
    (channels width categories).Nodup :=
  nodup_eraseDups _

/-- The channels that are gone through are those on which there are events. -/
theorem mem_channels_iff_onChannel {width : Nat} {categories : List (List Event)} {c : String} :
    c ∈ channels width categories ↔ ∃ events ∈ categories, onChannel width c events ≠ [] := by
  rw [mem_channels]
  refine exists_congr fun events => and_congr_right fun _ => ?_
  rw [Ne, List.eq_nil_iff_forall_not_mem, not_forall_not]
  simp only [mem_onChannel]

/-- The channel that a violation is about, if it is about one. -/
def Diagnostic.channel? : Diagnostic → Option String
  | .plain _ => none
  | .missing _ => none
  | .counts channel _ _ => some channel
  | .spacing channel .. => some channel
  | .skipped channel _ => some channel
  | .pins .. => none
  | .character channel .. => some channel
  | .payload channel .. => some channel
  | .frame channel .. => some channel
  | .fewFrames channel => some channel

/-- All violations of a report are about one channel. -/
def AllOn (channel : String) (ds : List Diagnostic) : Prop :=
  ∀ d ∈ ds, d.channel? = some channel

namespace AllOn

variable {c : String} {ds es : List Diagnostic}

theorem append (hd : AllOn c ds) (he : AllOn c es) : AllOn c (ds ++ es) := by
  intro d hmem
  rcases List.mem_append.1 hmem with hmem | hmem
  · exact hd d hmem
  · exact he d hmem

theorem nil : AllOn c [] := by
  intro d hmem
  cases hmem

theorem singleton {d : Diagnostic} (h : d.channel? = some c) : AllOn c [d] := by
  intro e he
  rw [List.mem_singleton.1 he, h]

theorem flatMap {α : Type} {xs : List α} {f : α → List Diagnostic} (h : ∀ x, AllOn c (f x)) :
    AllOn c (xs.flatMap f) := by
  intro d hmem
  obtain ⟨x, -, hx⟩ := List.mem_flatMap.1 hmem
  exact h x d hx

/-- A check of entries that says something of those that it objects to. -/
theorem filterMap {α : Type} {xs : List α} {f : α → Option Diagnostic} {R : α → Prop}
    [DecidablePred R] {g : α → Diagnostic} (hf : ∀ x, f x = if R x then none else some (g x))
    (h : ∀ x, (g x).channel? = some c) : AllOn c (xs.filterMap f) := by
  intro d hmem
  obtain ⟨x, -, hx⟩ := List.mem_filterMap.1 hmem
  rw [hf] at hx
  split at hx
  · cases hx
  · cases hx
    exact h x

theorem counts (c : String) (tallies : List Tally) : AllOn c (countDiagnostics c tallies) := by
  cases tallies with
  | nil => exact nil
  | cons reference others =>
    intro d hmem
    obtain ⟨t, -, rfl⟩ := List.mem_map.1 hmem
    rfl

theorem spacing (c what : String) (b : Bounds) (events : List Event) :
    AllOn c (spacingDiagnostics c what b events) :=
  filterMap (R := fun p : (Event × Event) × Nat => b.Apart p.1.1 p.1.2)
    (g := fun p => .spacing c what (p.2 + 1) b p.1.1.timeMs p.1.2.timeMs) (fun _ => rfl)
    fun _ => rfl

end AllOn

/-- The violations that are about one channel. -/
def diagnosticsOn (channel : String) (ds : List Diagnostic) : List Diagnostic :=
  ds.filter (·.channel? == some channel)

/-- **A report that goes through some channels once says of each what is to be said of it.** -/
theorem diagnosticsOn_flatMap {cs : List String} {f : String → List Diagnostic} (hcs : cs.Nodup)
    (hf : ∀ c, AllOn c (f c)) {c : String} (hc : c ∈ cs) :
    diagnosticsOn c (cs.flatMap f) = f c := by
  have hself : diagnosticsOn c (f c) = f c := by
    rw [diagnosticsOn, List.filter_eq_self]
    intro d hd
    rw [hf c d hd, beq_self_eq_true]
  have hother : ∀ c', c' ≠ c → diagnosticsOn c (f c') = [] := by
    intro c' hne
    rw [diagnosticsOn, List.filter_eq_nil_iff]
    intro d hd heq
    rw [hf c' d hd, beq_iff_eq, Option.some.injEq] at heq
    exact hne heq
  induction cs with
  | nil => cases hc
  | cons x xs ih =>
    obtain ⟨hx, hxs⟩ := List.nodup_cons.1 hcs
    have hsplit : diagnosticsOn c ((x :: xs).flatMap f) =
        diagnosticsOn c (f x) ++ diagnosticsOn c (xs.flatMap f) := by
      rw [List.flatMap_cons, diagnosticsOn, List.filter_append]
      rfl
    rw [hsplit]
    rcases List.mem_cons.1 hc with rfl | hmem
    · have hrest : diagnosticsOn c (xs.flatMap f) = [] := by
        rw [diagnosticsOn, List.filter_flatMap, List.flatMap_eq_nil_iff]
        exact fun c' hc' => hother c' (fun heq => hx (heq ▸ hc'))
      rw [hself, hrest, List.append_nil]
    · rw [hother x (fun heq => hx (heq ▸ hmem)), ih hxs hmem, List.nil_append]

/-- **A report that goes through the channels that occur is about these**, and of each it says what
is to be said of it. -/
theorem about_channels {cs : List String} {f : String → List Diagnostic} {ds : List Diagnostic}
    {Occurs : String → Prop} (hds : ds = cs.flatMap f) (hcs : cs.Nodup) (hf : ∀ c, AllOn c (f c))
    (hoccurs : ∀ c, c ∈ cs ↔ Occurs c) :
    (∀ d ∈ ds, ∃ c, d.channel? = some c ∧ Occurs c) ∧
      ∀ c, Occurs c → diagnosticsOn c ds = f c := by
  rw [hds]
  refine ⟨fun d hd => ?_, fun c hc => diagnosticsOn_flatMap hcs hf ((hoccurs c).2 hc)⟩
  obtain ⟨c, hc, hd⟩ := List.mem_flatMap.1 hd
  exact ⟨c, hf c d hd, (hoccurs c).1 hc⟩

/-- The line for a number of events that is not what it should be. -/
def countLine (channel : String) (reference other : Tally) : List Diagnostic :=
  if other.count = reference.count then [] else [.counts channel reference other]

theorem countLine_eq_nil_iff {channel : String} {reference other : Tally} :
    countLine channel reference other = [] ↔ other.count = reference.count := by
  unfold countLine
  split <;> simp_all

theorem countDiagnostics_singleton (channel : String) (reference : Tally) :
    countDiagnostics channel [reference] = [] :=
  rfl

/-- **Numbers are compared to the first one**, each on its own line. -/
theorem countDiagnostics_cons_cons (channel : String) (reference other : Tally)
    (others : List Tally) :
    countDiagnostics channel (reference :: other :: others) =
      countLine channel reference other ++ countDiagnostics channel (reference :: others) := by
  rw [countLine, countDiagnostics, countDiagnostics]
  by_cases h : other.count = reference.count
  · rw [if_pos h, List.filter_cons_of_neg (by simp [h]), List.nil_append]
  · rw [if_neg h, List.filter_cons_of_pos (by simp [h]), List.map_cons, List.singleton_append]

theorem countDiagnostics_pair (channel : String) (reference other : Tally) :
    countDiagnostics channel [reference, other] = countLine channel reference other := by
  rw [countDiagnostics_cons_cons, countDiagnostics_singleton, List.append_nil]

/-! ## Positions -/

/-- One entry for each position at which there is something to say, in order. -/
def OnePerPosition (P : Nat → Diagnostic → Prop) (ds : List Diagnostic) : Prop :=
  ∃ positions : List Nat, positions.Pairwise (· < ·) ∧
    (∀ i, i ∈ positions ↔ ∃ d, P i d) ∧ List.Forall₂ P positions ds

theorem OnePerPosition.congr {P Q : Nat → Diagnostic → Prop} {ds : List Diagnostic}
    (h : OnePerPosition P ds) (hpq : ∀ i d, P i d ↔ Q i d) : OnePerPosition Q ds := by
  obtain ⟨positions, hsorted, hmem, hall⟩ := h
  refine ⟨positions, hsorted, fun i => ?_, hall.imp fun i d => (hpq i d).1⟩
  rw [hmem]
  exact exists_congr (hpq i)

section Positions

variable {α : Type} {f : α × Nat → Option Diagnostic}

/-- The positions of a numbered list, which may start with any number. -/
theorem positions_filterMap (xs : List α) (k : Nat) :
    ∃ positions : List Nat, positions.Pairwise (· < ·) ∧ (∀ i ∈ positions, k ≤ i) ∧
      (∀ i, i ∈ positions ↔ ∃ j x d, i = k + j ∧ xs[j]? = some x ∧ f (x, i) = some d) ∧
      List.Forall₂ (fun i d => ∃ j x, i = k + j ∧ xs[j]? = some x ∧ f (x, i) = some d)
        positions ((xs.zipIdx k).filterMap f) := by
  induction xs generalizing k with
  | nil => exact ⟨[], .nil, by simp, by simp, .nil⟩
  | cons x xs ih =>
    obtain ⟨positions, hsorted, hle, hmem, hall⟩ := ih (k + 1)
    -- an entry behind the first one is at the position before it in the rest
    have hshift : ∀ {i : Nat} {d : Diagnostic},
        (∃ j y, i = k + 1 + j ∧ xs[j]? = some y ∧ f (y, i) = some d) →
          ∃ j y, i = k + j ∧ (x :: xs)[j]? = some y ∧ f (y, i) = some d := by
      rintro i d ⟨j, y, rfl, hy, hd⟩
      exact ⟨j + 1, y, by omega, by rwa [List.getElem?_cons_succ], hd⟩
    have hsplit : ∀ i, (∃ j y d, i = k + j ∧ (x :: xs)[j]? = some y ∧ f (y, i) = some d) ↔
        (i = k ∧ ∃ d, f (x, k) = some d) ∨ i ∈ positions := by
      intro i
      rw [hmem]
      constructor
      · rintro ⟨j, y, d, rfl, hy, hd⟩
        cases j with
        | zero =>
          rw [List.getElem?_cons_zero, Option.some.injEq] at hy
          subst hy
          exact Or.inl ⟨rfl, d, hd⟩
        | succ j => exact Or.inr ⟨j, y, d, by omega, by rwa [List.getElem?_cons_succ] at hy, hd⟩
      · rintro (⟨rfl, d, hd⟩ | ⟨j, y, d, rfl, hy, hd⟩)
        · exact ⟨0, x, d, rfl, rfl, hd⟩
        · obtain ⟨j', y', hj, hy', hd'⟩ := hshift ⟨j, y, rfl, hy, hd⟩
          exact ⟨j', y', d, hj, hy', hd'⟩
    rw [List.zipIdx_cons]
    cases hx : f (x, k) with
    | none =>
      rw [List.filterMap_cons_none hx]
      refine ⟨positions, hsorted, fun i hi => Nat.le_of_succ_le (hle i hi), fun i => ?_,
        hall.imp fun i d => hshift⟩
      rw [hsplit, hx]
      simp
    | some d =>
      rw [List.filterMap_cons_some hx]
      refine ⟨k :: positions, List.pairwise_cons.2 ⟨hle, hsorted⟩, fun i hi => ?_, fun i => ?_,
        .cons ⟨0, x, rfl, rfl, hx⟩ (hall.imp fun i d => hshift)⟩
      · rcases List.mem_cons.1 hi with rfl | hi
        · exact Nat.le_refl _
        · exact Nat.le_of_succ_le (hle i hi)
      · rw [hsplit, hx, List.mem_cons]
        simp

/-- **A check that goes through a sequence says one thing for each entry that it objects to.** -/
theorem onePerPosition_filterMap (xs : List α) :
    OnePerPosition (fun i d => ∃ x, xs[i]? = some x ∧ f (x, i) = some d)
      (xs.zipIdx.filterMap f) := by
  obtain ⟨positions, hsorted, -, hmem, hall⟩ := positions_filterMap (f := f) xs 0
  refine ⟨positions, hsorted, fun i => ?_, hall.imp ?_⟩
  · rw [hmem]
    constructor
    · rintro ⟨j, x, d, rfl, hx, hd⟩
      rw [Nat.zero_add] at hd ⊢
      exact ⟨d, x, hx, hd⟩
    · rintro ⟨d, x, hx, hd⟩
      exact ⟨i, x, d, (Nat.zero_add i).symm, hx, hd⟩
  · rintro i d ⟨j, x, rfl, hx, hd⟩
    rw [Nat.zero_add] at hd ⊢
    exact ⟨x, hx, hd⟩

/-- The same, of a check that compares two sequences entry by entry. -/
theorem onePerPosition_zip {β : Type} {R : α → β → Prop} [∀ x y, Decidable (R x y)]
    {say : Nat → α → β → Diagnostic} {f : (α × β) × Nat → Option Diagnostic}
    (hf : ∀ x y i, f ((x, y), i) = if R x y then none else some (say i x y))
    (xs : List α) (ys : List β) :
    OnePerPosition (fun i d => ∃ x y, xs[i]? = some x ∧ ys[i]? = some y ∧ ¬R x y ∧ d = say i x y)
      ((xs.zip ys).zipIdx.filterMap f) := by
  refine (onePerPosition_filterMap (f := f) (xs.zip ys)).congr fun i d => ?_
  constructor
  · rintro ⟨⟨x, y⟩, hxy, hd⟩
    obtain ⟨hx, hy⟩ := List.getElem?_zip_eq_some.1 hxy
    rw [hf] at hd
    split at hd
    · cases hd
    · exact ⟨x, y, hx, hy, ‹_›, (Option.some.inj hd).symm⟩
  · rintro ⟨x, y, hx, hy, hbad, rfl⟩
    exact ⟨(x, y), List.getElem?_zip_eq_some.2 ⟨hx, hy⟩, by rw [hf, if_neg hbad]⟩

end Positions

/-- A piece of a report for each of the first `n` positions, in order. -/
def PieceByPiece (n : Nat) (P : Nat → List Diagnostic → Prop) (ds : List Diagnostic) : Prop :=
  ∃ piece : Nat → List Diagnostic, ds = (List.range n).flatMap piece ∧ ∀ i < n, P i (piece i)

section Pieces

variable {α : Type}

/-- **A check that may say several things of an entry says them one entry after the other.** -/
theorem pieceByPiece_flatMap (f : α × Nat → List Diagnostic) (xs : List α) :
    PieceByPiece xs.length (fun i ds => ∃ x, xs[i]? = some x ∧ ds = f (x, i))
      (xs.zipIdx.flatMap f) := by
  -- what is said at a position is the same whatever follows, so this goes from front to back
  induction xs using List.reverseRecOn with
  | nil => exact ⟨fun _ => [], rfl, fun i hi => absurd hi (Nat.not_lt_zero i)⟩
  | append_singleton xs x ih =>
    obtain ⟨piece, hds, hpiece⟩ := ih
    refine ⟨fun i => if i < xs.length then piece i else f (x, i), ?_, fun i hi => ?_⟩
    · have hfront : (List.range xs.length).flatMap
          (fun i => if i < xs.length then piece i else f (x, i)) =
            (List.range xs.length).flatMap piece :=
        List.flatMap_congr fun i hi => if_pos (List.mem_range.1 hi)
      rw [List.zipIdx_append, List.flatMap_append, hds, List.length_append, List.length_singleton,
        List.range_succ, List.flatMap_append, hfront, List.flatMap_singleton,
        if_neg (Nat.lt_irrefl _)]
      simp
    · dsimp only
      rw [List.length_append, List.length_singleton] at hi
      split
      · rename_i hlt
        obtain ⟨y, hy, heq⟩ := hpiece i hlt
        exact ⟨y, by rw [List.getElem?_append_left hlt, hy], heq⟩
      · rename_i hge
        obtain rfl : i = xs.length := by omega
        exact ⟨x, List.getElem?_concat_length, rfl⟩

/-- The same, of a check that compares three sequences of one length. -/
theorem pieceByPiece_zip_zip (f : ((α × α) × α) × Nat → List Diagnostic) {xs ys zs : List α}
    (hy : xs.length = ys.length) (hz : xs.length = zs.length) :
    PieceByPiece xs.length
      (fun i ds => ∃ x y z, xs[i]? = some x ∧ ys[i]? = some y ∧ zs[i]? = some z ∧
        ds = f (((x, y), z), i))
      (((xs.zip ys).zip zs).zipIdx.flatMap f) := by
  have hlen : ((xs.zip ys).zip zs).length = xs.length := by
    rw [List.length_zip, List.length_zip, ← hy, ← hz, Nat.min_self, Nat.min_self]
  obtain ⟨piece, hds, hpiece⟩ := pieceByPiece_flatMap f ((xs.zip ys).zip zs)
  rw [hlen] at hds hpiece
  refine ⟨piece, hds, fun i hi => ?_⟩
  obtain ⟨⟨⟨x, y⟩, z⟩, hat, heq⟩ := hpiece i hi
  obtain ⟨hxy, hzat⟩ := List.getElem?_zip_eq_some.1 hat
  obtain ⟨hxat, hyat⟩ := List.getElem?_zip_eq_some.1 hxy
  exact ⟨x, y, z, hxat, hyat, hzat, heq⟩

end Pieces

/-! ## Time -/

/-- The time from one event to another, as a whole number. -/
def Event.gap (previous current : Event) : Int :=
  (current.timeMs.toNat : Int) - previous.timeMs.toNat

/-- The time between two events fits into a signed 64-bit number. -/
def Event.Near (previous current : Event) : Prop :=
  Int64.minValue.toInt ≤ previous.gap current ∧ previous.gap current ≤ Int64.maxValue.toInt

instance : DecidableRel Event.Near :=
  fun previous current => inferInstanceAs (Decidable
    (Int64.minValue.toInt ≤ previous.gap current ∧
      previous.gap current ≤ Int64.maxValue.toInt))

/-- The time between two events is within bounds. -/
def Bounds.Spaced (b : Bounds) (previous current : Event) : Prop :=
  b.min ≤ previous.gap current ∧ previous.gap current ≤ b.max

instance (b : Bounds) : DecidableRel b.Spaced :=
  fun previous current => inferInstanceAs (Decidable
    (b.min ≤ previous.gap current ∧ previous.gap current ≤ b.max))

theorem elapsed_eq_gap {previous current : Event} (h : previous.Near current) :
    elapsed previous.timeMs current.timeMs = previous.gap current := by
  have hwrap : ∀ t : UInt64, t.toInt64.toInt = (t.toNat : Int).bmod (2 ^ 64) :=
    fun t => BitVec.toInt_eq_toNat_bmod t.toBitVec
  obtain ⟨hlow, hhigh⟩ := h
  rw [Int64.toInt_minValue] at hlow
  rw [Int64.toInt_maxValue] at hhigh
  unfold Event.gap at hlow hhigh ⊢
  rw [elapsed, Int64.toInt_sub, hwrap, hwrap, Int.bmod_sub_bmod, Int.sub_bmod_bmod]
  exact Int.bmod_eq_of_le (by omega) (by omega)

theorem apart_iff_spaced {b : Bounds} {previous current : Event} (h : previous.Near current) :
    b.Apart previous current ↔ b.Spaced previous current := by
  rw [Bounds.Apart, Bounds.contains_iff, elapsed_eq_gap h, Bounds.Spaced]

theorem isChain_apart_iff {b : Bounds} {events : List Event} (h : events.IsChain Event.Near) :
    events.IsChain b.Apart ↔ events.IsChain b.Spaced := by
  rw [← forall_mem_zip_tail_iff] at h
  rw [← forall_mem_zip_tail_iff, ← forall_mem_zip_tail_iff]
  exact forall_congr' fun p => forall_congr' fun hp => apart_iff_spaced (h p hp)

/-- What is to be said of an event and the one after it: that they are not the right time apart. -/
def OutOfStep (channel what : String) (b : Bounds) (events : List Event) (i : Nat)
    (d : Diagnostic) : Prop :=
  ∃ x y, events[i]? = some x ∧ events[i + 1]? = some y ∧ ¬b.Spaced x y ∧
    d = .spacing channel what (i + 1) b x.timeMs y.timeMs

/-- **The check of the spacing says one thing for each pair of neighbours out of bounds.** -/
theorem onePerPosition_spacing {channel what : String} {b : Bounds} {events : List Event}
    (h : events.IsChain Event.Near) :
    OnePerPosition (OutOfStep channel what b events)
      (spacingDiagnostics channel what b events) := by
  rw [← forall_mem_zip_tail_iff] at h
  refine (onePerPosition_zip (R := b.Apart) (fun x y i => rfl) events
    events.tail).congr fun i d => ?_
  refine exists_congr fun x => exists_congr fun y => ?_
  rw [List.getElem?_tail]
  refine and_congr_right fun hx => and_congr_right fun hy => ?_
  have hxy : (x, y) ∈ events.zip events.tail := by
    refine List.mem_of_getElem? (i := i) (List.getElem?_zip_eq_some.2 ⟨hx, ?_⟩)
    rwa [List.getElem?_tail]
  rw [apart_iff_spaced (h _ hxy)]

end BoardBench
