import Mathlib.Data.List.Basic

/-!
# Interleavings — what a merge of two sequences may look like

A merged log mixes the events of two links. `Interleaving xs ys zs` says that `zs` holds exactly the
entries of `xs` and of `ys`, each list in its own order, and nothing about how the two are mixed.

The main fact is `interleaving_of_tagged`: a list whose entries carry the side that they came from
is an interleaving of what came from the one side and what came from the other. If it is in order
besides, it is their merge (`merge_of_tagged`). Everything else here is what an interleaving keeps:
its length, its members, and every selection that takes entries from one of the two lists only.

It is an inductive relation, and not a statement about positions or counts, because the lists that
are compared are built by the same steps: an entry more in the merged list is an entry more in one
of the other two. That it is no function of the two lists is the point of it: nothing is claimed
about whose turn it was.
-/

set_option autoImplicit false

namespace BoardBench

variable {α : Type}

/-- The third list mixes the first two without losing, repeating or reordering an entry. -/
inductive Interleaving : List α → List α → List α → Prop
  | nil : Interleaving [] [] []
  | left {x : α} {xs ys zs : List α} : Interleaving xs ys zs → Interleaving (x :: xs) ys (x :: zs)
  | right {y : α} {xs ys zs : List α} : Interleaving xs ys zs → Interleaving xs (y :: ys) (y :: zs)

namespace Interleaving

variable {xs ys zs : List α}

theorem symm (h : Interleaving xs ys zs) : Interleaving ys xs zs := by
  induction h with
  | nil => exact .nil
  | left _ ih => exact .right ih
  | right _ ih => exact .left ih

/-- One list after the other is one way to mix them. -/
theorem append (xs ys : List α) : Interleaving xs ys (xs ++ ys) := by
  induction xs with
  | nil =>
    induction ys with
    | nil => exact .nil
    | cons y ys ih => exact .right ih
  | cons x xs ih => exact .left ih

theorem length_eq (h : Interleaving xs ys zs) : zs.length = xs.length + ys.length := by
  induction h with
  | nil => rfl
  | left _ ih => simp only [List.length_cons, ih]; omega
  | right _ ih => simp only [List.length_cons, ih]; omega

theorem mem_iff (h : Interleaving xs ys zs) {x : α} : x ∈ zs ↔ x ∈ xs ∨ x ∈ ys := by
  induction h with
  | nil => simp
  | left _ ih => rw [List.mem_cons, List.mem_cons, ih, or_assoc]
  | right _ ih => rw [List.mem_cons, List.mem_cons, ih, or_left_comm]

theorem eq_of_nil (h : Interleaving xs [] zs) : zs = xs := by
  generalize hys : ([] : List α) = ys at h
  induction h with
  | nil => rfl
  | left _ ih => rw [ih hys]
  | right _ _ => cases hys

theorem filter (h : Interleaving xs ys zs) (p : α → Bool) :
    Interleaving (xs.filter p) (ys.filter p) (zs.filter p) := by
  induction h with
  | nil => exact .nil
  | @left x xs ys zs _ ih =>
    cases hx : p x with
    | true =>
      rw [List.filter_cons_of_pos hx, List.filter_cons_of_pos hx]
      exact ih.left
    | false =>
      rw [List.filter_cons_of_neg (by simp [hx]), List.filter_cons_of_neg (by simp [hx])]
      exact ih
  | @right y xs ys zs _ ih =>
    cases hy : p y with
    | true =>
      rw [List.filter_cons_of_pos hy, List.filter_cons_of_pos hy]
      exact ih.right
    | false =>
      rw [List.filter_cons_of_neg (by simp [hy]), List.filter_cons_of_neg (by simp [hy])]
      exact ih

/-- A selection that takes nothing from the second list sees the first one only. -/
theorem filter_left (h : Interleaving xs ys zs) {p : α → Bool} (hp : ∀ y ∈ ys, p y = false) :
    zs.filter p = xs.filter p := by
  have hnil : ys.filter p = [] := by
    rw [List.filter_eq_nil_iff]
    intro y hy
    simp [hp y hy]
  have hfilter := h.filter p
  rw [hnil] at hfilter
  exact hfilter.eq_of_nil

/-- A selection that takes nothing from the first list sees the second one only. -/
theorem filter_right (h : Interleaving xs ys zs) {p : α → Bool} (hp : ∀ x ∈ xs, p x = false) :
    zs.filter p = ys.filter p :=
  h.symm.filter_left hp

end Interleaving

/-- **Tags tell the two sides of a merge apart.** Entries that each carry one of two tags are an
interleaving of those with the tag and those without. -/
theorem interleaving_of_tagged {τ : Type} (side : τ → Bool) (xs : List (τ × α)) :
    Interleaving ((xs.filter fun x => side x.1).map (·.2))
      ((xs.filter fun x => !side x.1).map (·.2)) (xs.map (·.2)) := by
  induction xs with
  | nil => exact .nil
  | cons x xs ih =>
    cases hx : side x.1 with
    | true => simpa [List.filter_cons, hx] using ih.left
    | false => simpa [List.filter_cons, hx] using ih.right

/-- **A list that is in order, and in which the first side comes first where both are equal, is the
merge of its two sides.** -/
theorem merge_of_tagged {τ : Type} (side : τ → Bool) (le : α → α → Bool) {xs : List (τ × α)}
    (h : xs.Pairwise fun x y => (side x.1 = true → side y.1 = false → le x.2 y.2 = true) ∧
      (side x.1 = false → side y.1 = true → le y.2 x.2 = false)) :
    xs.map (·.2) = List.merge ((xs.filter fun x => side x.1).map (·.2))
      ((xs.filter fun x => !side x.1).map (·.2)) le := by
  induction xs with
  | nil => simp
  | cons x xs ih =>
    obtain ⟨hx, hxs⟩ := List.pairwise_cons.1 h
    have hrest := ih hxs
    cases hside : side x.1 with
    | true =>
      simp only [List.filter_cons, hside, if_true, Bool.not_true, Bool.false_eq_true, if_false,
        List.map_cons, hrest]
      -- the head of the other side, if there is one, does not come before it
      cases hright : xs.filter fun x => !side x.1 with
      | nil => rw [List.map_nil, List.merge_right, List.merge_right]
      | cons y ys =>
        obtain ⟨hy, hyside⟩ := List.mem_filter.1 (hright ▸ List.mem_cons_self : y ∈ _)
        have hle : le x.2 y.2 = true := (hx y hy).1 hside (by simpa using hyside)
        rw [List.map_cons, List.cons_merge_cons_pos _ _ _ hle]
    | false =>
      simp only [List.filter_cons, hside, if_true, Bool.not_false, Bool.false_eq_true, if_false,
        List.map_cons, hrest]
      cases hleft : xs.filter fun x => side x.1 with
      | nil => rw [List.map_nil, List.nil_merge, List.nil_merge]
      | cons y ys =>
        obtain ⟨hy, hyside⟩ := List.mem_filter.1 (hleft ▸ List.mem_cons_self : y ∈ _)
        have hnot : le y.2 x.2 = false := (hx y hy).2 hside hyside
        rw [List.map_cons, List.cons_merge_cons_neg _ _ _ (by simp [hnot])]

/-- If the second list is in front altogether, the merge puts it there. -/
theorem merge_of_not_le {le : α → α → Bool} {xs ys : List α}
    (h : ∀ x ∈ xs, ∀ y ∈ ys, le x y = false) : List.merge xs ys le = ys ++ xs := by
  induction ys with
  | nil => rw [List.merge_right, List.nil_append]
  | cons y ys ih =>
    cases xs with
    | nil => rw [List.nil_merge, List.append_nil]
    | cons x xs =>
      have hnot : le x y = false := h x List.mem_cons_self y List.mem_cons_self
      rw [List.cons_merge_cons_neg _ _ _ (by simp [hnot]), List.cons_append,
        ih fun x hx y hy => h x hx y (List.mem_cons_of_mem _ hy)]

end BoardBench
