import BoardBench.Report.Saving

/-!
# Files that were written

A path leads through directories. What is put at a place that is no directory is in no path's way,
and **a path that leads somewhere still leads there** (`Tree.locate_set`). So a text that was
written can be read at the same path, and all other places are as before (`Tree.write_cases`,
`Tree.read_write`) — unless a terminal stands there, which takes the text and keeps nothing.

What is needed of the file system is one fact with a frame: the place that was written has the new
content, and every path leads where it led before. The frame is about paths and not about places,
because it is paths that the program keeps. It holds since writing never puts anything where a
directory is, which is the condition of all lemmas here.
-/

set_option autoImplicit false

namespace BoardBench

namespace Tree

variable {t t' : Tree} {place other : Place} {entry : Entry} {g : Target}

/-! ## Paths in a tree with a new entry -/

/-- What is put where no directory is takes none away. -/
theorem get?_set_of_directory (hplace : t.get? place ≠ some .directory)
    (h : t.get? other = some .directory) : (t.set place entry).get? other = some .directory := by
  have hroot : place ≠ [] := by
    intro heq
    rw [heq] at hplace
    exact hplace rfl
  have hne : other ≠ place := by
    intro heq
    rw [heq] at h
    exact hplace h
  rw [get?_set hroot, if_neg hne, h]

/-- A step can be taken iff it stays, goes up, or is the name of a directory. -/
theorem enter_eq_ok_iff {step : String} : t.enter place step = .ok other ↔
    (step = Path.stay ∧ other = place) ∨
      (step ≠ Path.stay ∧ step = Path.up ∧ other = place.dropLast) ∨
      (step ≠ Path.stay ∧ step ≠ Path.up ∧ Path.stepTooLong step = false ∧
        t.get? (place ++ [step]) = some .directory ∧ other = place ++ [step]) := by
  unfold enter
  by_cases hstay : step = Path.stay
  · simp [hstay, eq_comm (a := other)]
  · by_cases hup : step = Path.up
    · simp [hup, show Path.up ≠ Path.stay by decide, eq_comm (a := other)]
    · cases Path.stepTooLong step
      · rcases t.get? (place ++ [step]) with _ | _ | _ | _ <;>
          simp [hstay, hup, eq_comm (a := other)]
      · simp [hstay, hup]

theorem enter_set {at' : Place} {step : String} (hplace : t.get? place ≠ some .directory)
    (h : t.enter at' step = .ok other) : (t.set place entry).enter at' step = .ok other := by
  rw [enter_eq_ok_iff] at h ⊢
  obtain hstay | hup | ⟨hstay, hup, hshort, hdirectory, hother⟩ := h
  · exact Or.inl hstay
  · exact Or.inr (Or.inl hup)
  · exact Or.inr (Or.inr ⟨hstay, hup, hshort, get?_set_of_directory hplace hdirectory, hother⟩)

theorem target_set {asDirectory : Bool} {steps : List String}
    (hplace : t.get? place ≠ some .directory) (h : t.target asDirectory other steps = .ok g) :
    (t.set place entry).target asDirectory other steps = .ok g := by
  fun_induction t.target asDirectory other steps with
  | case1 => exact h
  | case2 at' step hspecial =>
    rw [target, if_pos hspecial]
    cases hstep : t.enter at' step with
    | ok next =>
      rw [enter_set hplace hstep]
      rwa [hstep] at h
    | error f =>
      rw [hstep] at h
      cases h
  | case3 at' step hspecial hlong => cases h
  | case4 at' step hspecial hlong =>
    rw [target, if_neg hspecial, if_neg hlong]
    exact h
  | case5 at' step rest hmore next hstep ih =>
    rw [target, enter_set hplace hstep]
    · exact ih h
    · exact hmore
  | case6 at' step rest hmore f hstep => cases h

theorem follow_set {p : Path} (hplace : t.get? place ≠ some .directory)
    (h : t.follow p = .ok g) : (t.set place entry).follow p = .ok g := by
  unfold follow at h ⊢
  split at h
  · cases h
  · rename_i hempty
    rw [if_neg hempty]
    exact target_set hplace h

/-- **A path that leads somewhere still leads there** when something was put where no directory
was. -/
theorem locate_set {path : String} (hplace : t.get? place ≠ some .directory)
    (h : t.locate path = .ok g) : (t.set place entry).locate path = .ok g := by
  unfold locate at h ⊢
  split at h
  · cases h
  · split at h
    · cases h
    · rename_i hnul hlong
      rw [if_neg hnul, if_neg hlong]
      exact follow_set hplace h

/-! ## Writing and reading -/

/-- What writing a file does: the path leads to a place where no directory is, and the bytes are
what stands there, or a terminal has taken them. -/
theorem write_cases {path : String} {bytes : List UInt8} (h : t.write path bytes = .ok t') :
    ∃ g, t.locate path = .ok g ∧ g.asDirectory = false ∧
      ((∃ number, t.get? g.place = some (.terminal number) ∧ t' = t) ∨
        (t.get? g.place ≠ some .directory ∧ t' = t.set g.place (.file bytes))) := by
  unfold write at h
  split at h
  · cases h
  · rename_i g hg
    split at h
    · cases h
    · rename_i hfile
      refine ⟨g, hg, by simpa using hfile, ?_⟩
      split at h
      · cases h
      · rename_i number hterminal
        cases h
        exact Or.inl ⟨number, hterminal, rfl⟩
      · rename_i hdirectory _
        cases h
        exact Or.inr ⟨hdirectory, rfl⟩

/-- Where nothing stands, a new file is made. -/
theorem write_new {path : String} {bytes : List UInt8} (h : t.locate path = .ok ⟨place, false⟩)
    (hplace : t.get? place = none) :
    t.write path bytes = .ok (t.set place (.file bytes)) := by
  simp [write, h, hplace]

theorem write_terminal {path : String} {bytes : List UInt8} {number : Nat}
    (h : t.locate path = .ok ⟨place, false⟩) (hplace : t.get? place = some (.terminal number)) :
    t.write path bytes = .ok t := by
  simp [write, h, hplace]

/-- Nothing needs to be made to have the directory where one stands. -/
theorem makeDirectories_stay (h : t.get? t.current = some .directory) :
    t.makeDirectories Path.stay = (.ok (), t) := by
  have hparse : Path.parse Path.stay = ⟨false, [Path.stay], false⟩ := by decide
  have hfollow : t.follow ⟨false, [Path.stay], false⟩ = .ok ⟨t.current, true⟩ := by
    simp [follow, Path.isEmpty, target, enter, Functor.map, Except.map]
  have hmake : t.makeDirectory ⟨false, [Path.stay], false⟩ = .error .alreadyExists := by
    simp [makeDirectory, hfollow, h]
  have hthere : t.isDirectory ⟨false, [Path.stay], false⟩ = true := by
    simp [isDirectory, hfollow, h]
  rw [makeDirectories, if_neg (by decide), if_neg (by decide), hparse, makeAll, if_neg (by decide),
    hmake]
  simp [hthere]

/-- A terminal stands where a path leads. -/
def LeadsToTerminal (t : Tree) (path : String) : Prop :=
  ∃ g number, t.locate path = .ok g ∧ t.get? g.place = some (.terminal number)

/-- **What was written is read back**, except from a terminal. -/
theorem read_write {path : String} {bytes : List UInt8} (h : t.write path bytes = .ok t') :
    t'.read path = .ok bytes ∨ t'.LeadsToTerminal path := by
  obtain ⟨g, hg, hfile, ⟨number, hterminal, rfl⟩ | ⟨hplace, rfl⟩⟩ := write_cases h
  · exact Or.inr ⟨g, number, hg, hterminal⟩
  · have hroot : g.place ≠ [] := by
      intro heq
      rw [heq] at hplace
      exact hplace rfl
    left
    rw [read, locate_set hplace hg]
    simp [get?_set hroot, hfile]

end Tree

namespace Report

variable {r : Report} {directory path : String} {t t' : Tree}

/-- How a report is saved in a tree. -/
theorem save_tree : r.save Tree.storage directory t =
    match t.makeDirectories directory with
    | (.error f, made) => (.error (.report directory f), made)
    | (.ok (), made) =>
      match made.write (r.pathIn directory) (Text.encode r.contents) with
      | .error f => (.error (.report (r.pathIn directory) f), made)
      | .ok written => (.ok (r.pathIn directory), written) := by
  unfold save
  simp only [Tree.storage, Bind.bind, StateT.bind]
  rcases t.makeDirectories directory with ⟨_ | _, made⟩
  · rfl
  · simp only [StateT.bind]
    cases made.write (r.pathIn directory) (Text.encode r.contents) <;> rfl

/-- **A report that was saved is in the file at the path that is given back**, unless a terminal
stands there. -/
theorem read_save (h : r.save Tree.storage directory t = (.ok path, t')) :
    path = r.pathIn directory ∧
      (t'.read path = .ok (Text.encode r.contents) ∨ t'.LeadsToTerminal path) := by
  rw [save_tree] at h
  split at h
  · cases h
  · split at h
    · cases h
    · rename_i hwritten
      rw [Prod.mk.injEq, Except.ok.injEq] at h
      obtain ⟨rfl, rfl⟩ := h
      exact ⟨rfl, Tree.read_write hwritten⟩

end Report

end BoardBench
