import Mathlib.Data.List.Chain
import Mathlib.Data.List.Nodup
import Mathlib.Tactic.Tauto

/-!
# Sequences — what is needed of lists and is about nothing else

Logs, queues and traffic are lists, and the checks of the bench go through them by position. What
the proofs need of lists beyond the library is gathered here, so that it is proved once and found
in one place. Nothing in this module speaks of an event or of a link.

* *Cuts.* A list that is known in two ways is cut at an entry, and the question is on which side
  the entry lies (`append_eq_append_cons`), or where a run of entries ends
  (`getElem?_of_le_takeWhile`). The statements give the parts by name rather than by a length, as
  it is the parts that the proofs go on with.
* *Comparisons.* The checks pair sequences up and number the pairs, while the theorems compare
  what is told of each entry as lists. `forall_mem_zip_iff` and its siblings lead from the one to
  the other; they ask for equal lengths, which is what a check looks at first.
* *One entry.* When a single entry differs, everything that is said is said at its position
  (`flatMap_zipIdx_of_forall_ne`), and it can differ only in what is compared.
* *First appearances.* Channels are listed by `eraseDups`. **One more entry is kept if it was not
  seen yet** (`eraseDups_snoc`), and from this, by induction from the back, what is kept stands in
  the order in which it appeared first.
-/

set_option autoImplicit false

namespace BoardBench

variable {α β γ : Type}

/-! ## Cuts -/

theorem filterMap_snoc (f : α → Option β) (xs : List α) (x : α) :
    (xs ++ [x]).filterMap f = xs.filterMap f ++ (f x).toList := by
  rw [List.filterMap_append, List.filterMap_cons]
  cases f x <;> rfl

/-- An entry of a list in two parts is in one of them. -/
theorem append_eq_append_cons {xs ys before after : List α} {x : α}
    (h : xs ++ ys = before ++ x :: after) :
    x ∈ xs ∨ ∃ mid, before = xs ++ mid ∧ ys = mid ++ x :: after := by
  rcases List.append_eq_append_iff.1 h with ⟨mid, hbefore, hys⟩ | ⟨mid, hxs, hafter⟩
  · exact Or.inr ⟨mid, hbefore, hys⟩
  · cases mid with
    | nil =>
      rw [List.append_nil] at hxs
      exact Or.inr ⟨[], by rw [hxs, List.append_nil], hafter.symm⟩
    | cons y mid =>
      rw [List.cons_append, List.cons.injEq] at hafter
      rw [hxs, hafter.1]
      exact Or.inl (List.mem_append_right _ List.mem_cons_self)

/-- What comes behind a front part whose entries all satisfy `p`: another such entry, the first one
that does not, or the end. -/
theorem getElem?_of_le_takeWhile {p : α → Bool} {xs : List α} {n : Nat}
    (h : n ≤ (xs.takeWhile p).length) :
    (∃ x, xs[n]? = some x ∧ p x = true ∧ n + 1 ≤ (xs.takeWhile p).length) ∨
      (∃ x, xs[n]? = some x ∧ p x = false ∧ n = (xs.takeWhile p).length) ∨
      xs[n]? = none ∧ n = (xs.takeWhile p).length ∧ n = xs.length := by
  induction xs generalizing n with
  | nil => simpa using h
  | cons x xs ih =>
    cases hx : p x with
    | true =>
      rw [List.takeWhile_cons_of_pos hx, List.length_cons] at h ⊢
      cases n with
      | zero => exact Or.inl ⟨x, rfl, hx, Nat.succ_le_succ (Nat.zero_le _)⟩
      | succ n =>
        simpa only [List.getElem?_cons_succ, Nat.add_le_add_iff_right, Nat.add_right_cancel_iff,
          List.length_cons] using ih (Nat.le_of_succ_le_succ h)
    | false =>
      rw [List.takeWhile_cons_of_neg (by simp [hx]), List.length_nil] at h ⊢
      obtain rfl := Nat.le_zero.1 h
      exact Or.inr (Or.inl ⟨x, rfl, hx, rfl⟩)

/-! ## Comparisons -/

/-- A check of numbered entries that does not look at the numbers. -/
theorem forall_mem_zipIdx_iff {P : α → Prop} {xs : List α} :
    (∀ x ∈ xs.zipIdx, P x.1) ↔ ∀ x ∈ xs, P x := by
  have hmap : xs.zipIdx.map Prod.fst = xs := List.zipIdx_map_fst 0 xs
  constructor
  · intro h x hx
    rw [← hmap] at hx
    obtain ⟨y, hy, rfl⟩ := List.mem_map.1 hx
    exact h y hy
  · intro h x hx
    exact h x.1 (hmap ▸ List.mem_map_of_mem hx)

theorem forall_mem_zip_tail_iff {R : α → α → Prop} {xs : List α} :
    (∀ p ∈ xs.zip xs.tail, R p.1 p.2) ↔ xs.IsChain R := by
  induction xs with
  | nil => simp
  | cons x xs ih =>
    cases xs with
    | nil => simp
    | cons y ys =>
      rw [List.isChain_cons_cons, ← ih]
      simp

/-- Lists of one length agree entry by entry if what is compared of them is the same. -/
theorem forall_mem_zip_iff {f : α → γ} {g : β → γ} {xs : List α} {ys : List β}
    (h : xs.length = ys.length) : (∀ p ∈ xs.zip ys, f p.1 = g p.2) ↔ xs.map f = ys.map g := by
  induction xs generalizing ys with
  | nil =>
    obtain rfl := List.length_eq_zero_iff.1 h.symm
    simp
  | cons x xs ih =>
    cases ys with
    | nil => cases h
    | cons y ys =>
      have hlen : xs.length = ys.length := Nat.succ.inj h
      rw [List.map_cons, List.map_cons, List.cons.injEq, ← ih hlen]
      simp

/-- … and so do three lists. -/
theorem forall_mem_zip_zip_iff {f : α → γ} {xs ys zs : List α} (hy : xs.length = ys.length)
    (hz : xs.length = zs.length) :
    (∀ p ∈ (xs.zip ys).zip zs, f p.1.1 = f p.1.2 ∧ f p.1.1 = f p.2) ↔
      xs.map f = ys.map f ∧ xs.map f = zs.map f := by
  induction xs generalizing ys zs with
  | nil =>
    obtain rfl := List.length_eq_zero_iff.1 hy.symm
    obtain rfl := List.length_eq_zero_iff.1 hz.symm
    simp
  | cons x xs ih =>
    cases ys with
    | nil => cases hy
    | cons y ys =>
      cases zs with
      | nil => cases hz
      | cons z zs =>
        have hrest := ih (Nat.succ.inj hy) (Nat.succ.inj hz)
        simp only [List.zip_cons_cons, List.forall_mem_cons, List.map_cons, List.cons.injEq, hrest]
        tauto

theorem length_eq_of_map_eq {f : α → γ} {g : β → γ} {xs : List α} {ys : List β}
    (h : xs.map f = ys.map g) : xs.length = ys.length := by
  simpa using congrArg List.length h

/-! ## One entry -/

/-- If only one entry has something to say, that is all that is said. -/
theorem flatMap_of_forall_ne {xs : List α} {f : α → List β} {x : α} (hxs : xs.Nodup) (hx : x ∈ xs)
    (hf : ∀ y ∈ xs, y ≠ x → f y = []) : xs.flatMap f = f x := by
  induction xs with
  | nil => simp at hx
  | cons y ys ih =>
    obtain ⟨hy, hys⟩ := List.nodup_cons.1 hxs
    rw [List.flatMap_cons]
    by_cases hxy : x = y
    · subst hxy
      have hrest : ys.flatMap f = [] := by
        rw [List.flatMap_eq_nil_iff]
        intro z hz
        apply hf z (List.mem_cons_of_mem _ hz)
        intro heq
        exact hy (heq ▸ hz)
      rw [hrest, List.append_nil]
    · have hmem : x ∈ ys := (List.mem_cons.1 hx).resolve_left hxy
      rw [hf y List.mem_cons_self (Ne.symm hxy), List.nil_append]
      apply ih hys hmem
      intro z hz
      exact hf z (List.mem_cons_of_mem _ hz)

/-- The same, of a check that goes through a sequence. -/
theorem flatMap_zipIdx_of_forall_ne {xs : List α} {f : α × Nat → List β} {i : Nat} {x : α}
    (hx : xs[i]? = some x) (hf : ∀ j y, xs[j]? = some y → j ≠ i → f (y, j) = []) :
    xs.zipIdx.flatMap f = f (x, i) := by
  have hnodup : xs.zipIdx.Nodup := by
    apply List.Nodup.of_map Prod.snd
    rw [List.zipIdx_map_snd]
    exact List.nodup_range'
  apply flatMap_of_forall_ne hnodup (List.mk_mem_zipIdx_iff_getElem?.2 hx)
  intro p hp hne
  have hat : xs[p.2]? = some p.1 := List.mem_zipIdx_iff_getElem?.1 hp
  apply hf p.2 p.1 hat
  intro hpos
  rw [hpos, hx, Option.some.injEq] at hat
  exact hne (Prod.ext hat.symm hpos)

/-- The entry in the middle. -/
theorem getElem?_middle (front back : List α) (x : α) :
    (front ++ x :: back)[front.length]? = some x := by
  simp

/-- Another entry in the middle leaves the others as they are. -/
theorem getElem?_append_cons_of_ne {front back : List α} {x : α} (y : α) {j : Nat}
    (hj : j ≠ front.length) : (front ++ x :: back)[j]? = (front ++ y :: back)[j]? := by
  have hset : (front ++ y :: back).set front.length x = front ++ x :: back := by
    simp
  rw [← hset, List.getElem?_set_ne (Ne.symm hj)]

/-- Entries at one position agree in what is compared, if the sequences do. -/
theorem eq_of_map_eq {f : α → γ} {g : β → γ} {xs : List α} {ys : List β}
    (h : xs.map f = ys.map g) {i : Nat} {x : α} {y : β} (hx : xs[i]? = some x)
    (hy : ys[i]? = some y) : f x = g y := by
  have hat : (xs.map f)[i]? = (ys.map g)[i]? := by
    rw [h]
  simpa [hx, hy] using hat

/-- If one entry of a list is replaced, lost or added, and what is under each key stays the same,
then it was replaced by itself. -/
theorem eq_of_filter_eq [DecidableEq α] {front back : List (α × β)}
    {p q : Option (α × β)}
    (h : ∀ a, ((front ++ p.toList ++ back).filter (·.1 == a)).map (·.2) =
      ((front ++ q.toList ++ back).filter (·.1 == a)).map (·.2)) : p = q := by
  have hcut : ∀ a, (p.toList.filter (·.1 == a)).map (·.2) =
      (q.toList.filter (·.1 == a)).map (·.2) := by
    intro a
    have ha := h a
    simp only [List.filter_append, List.map_append] at ha
    exact List.append_cancel_left (List.append_cancel_right ha)
  cases p with
  | none =>
    cases q with
    | none => rfl
    | some q =>
      have hkey := hcut q.1
      simp at hkey
  | some p =>
    have hkey := hcut p.1
    cases q with
    | none => simp at hkey
    | some q =>
      by_cases heq : q.1 = p.1
      · have hdatum : p.2 = q.2 := by simpa [heq] using hkey
        rw [Prod.ext heq.symm hdatum]
      · simp [heq] at hkey

/-! ## First appearances -/

section FirstAppearances

variable [BEq α] [LawfulBEq α]

theorem nodup_eraseDups (xs : List α) : xs.eraseDups.Nodup := by
  cases xs with
  | nil => exact List.nodup_nil
  | cons x xs =>
    rw [List.eraseDups_cons, List.nodup_cons]
    refine ⟨fun hmem => ?_, nodup_eraseDups _⟩
    obtain ⟨-, hne⟩ := List.mem_filter.1 (List.mem_eraseDups.1 hmem)
    simp at hne
termination_by xs.length
decreasing_by exact Nat.lt_succ_of_le (List.length_filter_le _ _)

/-- **One more entry is kept if it has not been seen yet.** -/
theorem eraseDups_snoc (xs : List α) (x : α) :
    (xs ++ [x]).eraseDups = if x ∈ xs then xs.eraseDups else xs.eraseDups ++ [x] := by
  rw [List.eraseDups_append, List.removeAll]
  split
  · rename_i hmem
    rw [List.filter_cons_of_neg (by simpa using hmem)]
    simp
  · rename_i hmem
    rw [List.filter_cons_of_pos (by simpa using hmem), List.filter_nil, List.eraseDups_cons]
    rfl

/-- **What is kept stands in the order of first places.** -/
theorem pairwise_idxOf_eraseDups (xs : List α) :
    xs.eraseDups.Pairwise fun a b => xs.idxOf a < xs.idxOf b := by
  induction xs using List.reverseRecOn with
  | nil => exact .nil
  | append_singleton xs x ih =>
    -- what is added at the end changes no first place
    have hsame : ∀ a ∈ xs.eraseDups, (xs ++ [x]).idxOf a = xs.idxOf a :=
      fun a ha => List.idxOf_append_of_mem (List.mem_eraseDups.1 ha)
    have hkept : xs.eraseDups.Pairwise fun a b => (xs ++ [x]).idxOf a < (xs ++ [x]).idxOf b :=
      ih.imp_of_mem fun ha hb hlt => by rwa [hsame _ ha, hsame _ hb]
    rw [eraseDups_snoc]
    split
    · exact hkept
    · rename_i hnew
      refine List.pairwise_append.2 ⟨hkept, List.pairwise_singleton _ _, fun a ha b hb => ?_⟩
      rw [List.mem_singleton.1 hb, hsame a ha, List.idxOf_append_of_notMem hnew]
      exact (List.idxOf_lt_length_of_mem (List.mem_eraseDups.1 ha)).trans_le (Nat.le_add_right ..)

end FirstAppearances

end BoardBench
