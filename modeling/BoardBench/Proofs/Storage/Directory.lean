import BoardBench.Proofs.Storage
import Mathlib.Data.List.Basic

/-!
# Things in directories

The path of something in a directory is put together from two texts, and taken apart at slashes
again. **It has the steps of the name behind those of the directory** (`Path.parse_join`), whichever
way the directory is written, and steps go on where the steps before them have led. So when a
directory is there, as it is once it was made (`Tree.opens_of_makeDirectories`), what is in it is
found from there (`Tree.locate_join`): the path of the directory makes no other difference.

Steps are taken by recursion on the steps, and paths are split by recursion on the characters, so
that the two meet in one lemma about lists of steps (`Path.parse_join`) and are kept apart
otherwise. That a name with a slash in it makes two steps is the same lemma, as splitting does not
know what belongs to a name. `Opens` has a case of its own for no path at all: it leads to where one
stands, while the empty text is no path that could be located.
-/

set_option autoImplicit false

namespace BoardBench

/-! ## Steps of a path -/

namespace Path

variable {cs ds : List Char} {directory name : String}

theorem pieces_ne_nil (cs : List Char) : pieces cs ≠ [] := by
  cases cs with
  | nil => simp [pieces]
  | cons c cs =>
    rw [pieces]
    split
    · simp
    · split <;> simp

/-- The pieces at both sides of a slash have nothing to do with each other. -/
theorem pieces_append_slash (cs ds : List Char) :
    pieces (cs ++ '/' :: ds) = pieces cs ++ pieces ds := by
  induction cs with
  | nil => rfl
  | cons c cs ih =>
    rw [List.cons_append, pieces, pieces, ih]
    split
    · rfl
    · obtain ⟨p, ps, hcs⟩ := List.exists_cons_of_ne_nil (pieces_ne_nil cs)
      rw [hcs]
      rfl

theorem pieces_of_notMem (h : '/' ∉ cs) : pieces cs = [cs] := by
  induction cs with
  | nil => rfl
  | cons c cs ih =>
    obtain ⟨hc, hcs⟩ := not_or.1 (mt List.mem_cons.2 h)
    rw [pieces, if_neg (Ne.symm hc), ih hcs]

/-- What is not a slash is in some piece. -/
theorem exists_piece {c : Char} (h : c ∈ cs) (hc : c ≠ '/') : ∃ p ∈ pieces cs, p ≠ [] := by
  induction cs with
  | nil => cases h
  | cons d cs ih =>
    rw [pieces]
    split
    · rename_i hd
      obtain rfl | hmem := List.mem_cons.1 h
      · exact absurd hd hc
      · obtain ⟨p, hp, hne⟩ := ih hmem
        exact ⟨p, List.mem_cons_of_mem _ hp, hne⟩
    · split
      · exact ⟨[d], List.mem_cons_self, List.cons_ne_nil _ _⟩
      · exact ⟨_, List.mem_cons_self, List.cons_ne_nil _ _⟩

/-- The steps of a path with these characters. -/
def stepsOf (cs : List Char) : List String :=
  ((pieces cs).filter (!·.isEmpty)).map String.ofList

theorem parse_steps (text : String) : (parse text).steps = stepsOf text.toList :=
  rfl

theorem stepsOf_append_slash (cs ds : List Char) :
    stepsOf (cs ++ '/' :: ds) = stepsOf cs ++ stepsOf ds := by
  rw [stepsOf, pieces_append_slash, List.filter_append, List.map_append, stepsOf, stepsOf]

theorem stepsOf_of_notMem (h : '/' ∉ cs) (hne : cs ≠ []) : stepsOf cs = [String.ofList cs] := by
  rw [stepsOf, pieces_of_notMem h, List.filter_cons_of_pos (by simpa using hne), List.filter_nil,
    List.map_singleton]

theorem stepsOf_ne_nil {c : Char} (h : c ∈ cs) (hc : c ≠ '/') : stepsOf cs ≠ [] := by
  obtain ⟨p, hp, hne⟩ := exists_piece h hc
  have hmem : p ∈ (pieces cs).filter (!·.isEmpty) := List.mem_filter.2 ⟨hp, by simpa using hne⟩
  exact List.ne_nil_of_mem (List.mem_map_of_mem hmem)

/-- Only no text at all leads nowhere. -/
theorem isEmpty_parse_iff {text : String} : (parse text).isEmpty = true ↔ text = "" := by
  constructor
  · intro h
    by_contra hne
    obtain ⟨c, cs, hcs⟩ := List.exists_cons_of_ne_nil (mt String.toList_eq_nil_iff.1 hne)
    simp only [isEmpty, Bool.and_eq_true, Bool.not_eq_true', parse, hcs, List.head?_cons,
      List.isEmpty_iff] at h
    have hc : c ≠ '/' := by
      intro heq
      simp [heq] at h
    exact stepsOf_ne_nil List.mem_cons_self hc h.2
  · intro h
    rw [h]
    rfl

theorem mem_join {c : Char} (hc : c ≠ '/') (hhead : name.toList.head? ≠ some '/') :
    c ∈ (join directory name).toList ↔ c ∈ directory.toList ∨ c ∈ name.toList := by
  unfold join
  rw [if_neg hhead]
  split <;> simp [hc]

theorem join_empty (hhead : name.toList.head? ≠ some '/') : join "" name = name := by
  simp [join, hhead]

/-- **The path of something in a directory has the steps of its name behind those of the
directory.** -/
theorem parse_join (hdirectory : directory ≠ "") (hname : name ≠ "")
    (hhead : name.toList.head? ≠ some '/') :
    parse (join directory name) =
      { fromRoot := (parse directory).fromRoot
        steps := (parse directory).steps ++ (parse name).steps
        endsInSlash := (parse name).endsInSlash } := by
  obtain ⟨c, cs, hcs⟩ := List.exists_cons_of_ne_nil (mt String.toList_eq_nil_iff.1 hdirectory)
  have hne : name.toList ≠ [] := mt String.toList_eq_nil_iff.1 hname
  obtain ⟨middle, hjoin, hsteps⟩ : ∃ middle, join directory name = directory ++ middle ++ name ∧
      stepsOf (directory ++ middle ++ name).toList =
        stepsOf directory.toList ++ stepsOf name.toList := by
    by_cases hslash : directory.toList.getLast? = some '/'
    · obtain ⟨front, hfront⟩ := List.getLast?_eq_some_iff.1 hslash
      refine ⟨"", by simp [join, hhead, hslash], ?_⟩
      -- the slash that is there parts the two, and nothing is behind it in the directory
      have hlast : stepsOf directory.toList = stepsOf front := by
        rw [hfront, stepsOf_append_slash]
        exact List.append_nil _
      rw [hlast, ← stepsOf_append_slash]
      simp [hfront]
    · refine ⟨"/", by simp [join, hhead, hslash, hdirectory], ?_⟩
      rw [← stepsOf_append_slash]
      simp
  have hends : (directory ++ middle ++ name).toList.getLast? = name.toList.getLast? := by
    rw [String.toList_append, List.getLast?_append_of_ne_nil _ hne]
  have hstarts : (directory ++ middle ++ name).toList.head? = directory.toList.head? := by
    simp [hcs]
  rw [hjoin]
  change Path.mk _ (stepsOf (directory ++ middle ++ name).toList) _ = _
  rw [hsteps, hends, hstarts]
  rfl

end Path

namespace Tree

variable {t made : Tree} {place next : Place} {steps more : List String} {g : Target} {p : Path}
  {directory name : String}

/-! ## What goes on behind a directory -/

/-- If steps lead to a directory, all of them can be taken. -/
theorem enterAll_of_target {asDirectory : Bool} (h : t.target asDirectory place steps = .ok g)
    (hg : t.get? g.place = some .directory) : t.enterAll place steps = .ok g.place := by
  fun_induction t.target asDirectory place steps with
  | case1 place =>
    cases h
    rfl
  | case2 place step hspecial =>
    cases hstep : t.enter place step with
    | ok next =>
      rw [hstep] at h
      cases h
      rw [enterAll, hstep]
      rfl
    | error f =>
      rw [hstep] at h
      cases h
  | case3 place step hspecial hlong => cases h
  | case4 place step hspecial hlong =>
    cases h
    obtain ⟨hstay, hup⟩ := not_or.1 hspecial
    have hstep : t.enter place step = .ok (place ++ [step]) :=
      enter_eq_ok_iff.2 (Or.inr (Or.inr ⟨hstay, hup, by simpa using hlong, hg, rfl⟩))
    rw [enterAll, hstep]
    rfl
  | case5 place step rest hmore next hstep ih =>
    rw [enterAll, hstep]
    exact ih h
  | case6 place step rest hmore f hstep => cases h

/-- **More steps go on where the steps before them have led.** -/
theorem target_append {asDirectory : Bool} (h : t.enterAll place steps = .ok next)
    (hmore : more ≠ []) :
    t.target asDirectory place (steps ++ more) = t.target asDirectory next more := by
  induction steps generalizing place with
  | nil =>
    cases h
    rfl
  | cons step steps ih =>
    rw [enterAll] at h
    split at h
    · rename_i between hstep
      rw [List.cons_append, target, hstep]
      · exact ih h
      · simp [hmore]
    · cases h

/-- Where the path of a directory leads. No path at all leads to where one stands. -/
inductive Opens (t : Tree) : String → Place → Prop
  | here : t.Opens "" t.current
  | there {directory : String} {g : Target} (locates : t.locate directory = .ok g)
      (isDirectory : t.get? g.place = some .directory) : t.Opens directory g.place

theorem Opens.place_eq (h : t.Opens directory place) (hg : t.locate directory = .ok g) :
    place = g.place := by
  cases h with
  | here => cases hg
  | there hlocate =>
    rw [hlocate] at hg
    cases hg
    rfl

theorem isDirectory_iff :
    t.isDirectory p = true ↔ ∃ g, t.follow p = .ok g ∧ t.get? g.place = some .directory := by
  unfold isDirectory
  split
  · rename_i g hg
    simp [hg]
  · rename_i f hf
    simp [hf]

/-- What was made as a directory is one. -/
theorem isDirectory_of_makeDirectory (h : t.makeDirectory p = .ok made) :
    made.isDirectory p = true := by
  unfold makeDirectory at h
  split at h
  · cases h
  · rename_i g hg
    split at h
    · cases h
    · rename_i hnone
      cases h
      have hroot : g.place ≠ [] := by
        intro heq
        rw [heq] at hnone
        cases hnone
      have hplace : t.get? g.place ≠ some .directory := by simp [hnone]
      exact isDirectory_iff.2 ⟨g, follow_set hplace hg, by simp [get?_set hroot]⟩

theorem isDirectory_of_ensureDirectory (h : t.ensureDirectory p = (.ok (), made)) :
    made.isDirectory p = true := by
  unfold ensureDirectory at h
  split at h
  · rename_i hmade
    cases h
    exact isDirectory_of_makeDirectory hmade
  · split at h
    · rename_i hthere
      cases h
      exact hthere
    · cases h

theorem isDirectory_of_makeAll (hp : p.isEmpty = false) (h : t.makeAll p = (.ok (), made)) :
    made.isDirectory p = true := by
  rw [makeAll, if_neg (by simp [hp])] at h
  split at h
  · rename_i hmade
    cases h
    exact isDirectory_of_makeDirectory hmade
  · split at h
    · exact isDirectory_of_ensureDirectory h
    · split at h
      · exact isDirectory_of_ensureDirectory h
      · cases h
  · split at h
    · rename_i hthere
      cases h
      exact hthere
    · cases h

/-- **A directory that was made is there.** -/
theorem opens_of_makeDirectories (h : t.makeDirectories directory = (.ok (), made)) :
    ∃ place, made.Opens directory place := by
  by_cases hempty : directory = ""
  · rw [hempty]
    exact ⟨_, .here⟩
  · unfold makeDirectories at h
    split at h
    · cases h
    · split at h
      · cases h
      · rename_i hnul hlong
        have hpath : (Path.parse directory).isEmpty = false := by
          simpa using mt Path.isEmpty_parse_iff.1 hempty
        obtain ⟨g, hg, hdirectory⟩ := isDirectory_iff.1 (isDirectory_of_makeAll hpath h)
        refine ⟨g.place, .there ?_ hdirectory⟩
        rw [locate, if_neg hnul, if_neg hlong, hg]

theorem any_nul_iff {cs : List Char} : cs.any (·.toNat == 0) = true ↔ '\x00' ∈ cs := by
  have hnul : ∀ c : Char, c.toNat = 0 ↔ c = '\x00' := by
    intro c
    exact Char.toNat_inj (d := '\x00')
  simp [hnul]

theorem locate_of_nul {path : String} (h : '\x00' ∈ path.toList) :
    t.locate path = .error .nulInPath := by
  rw [locate, if_pos (any_nul_iff.2 h)]

theorem locate_eq_follow {path : String} (hnul : '\x00' ∉ path.toList)
    (hlong : (Text.encode path).length < Path.lengthLimit) :
    t.locate path = t.follow (Path.parse path) := by
  rw [locate, if_neg (mt any_nul_iff.1 hnul), if_neg (Nat.not_le.2 hlong)]

/-- **The path of something in a directory goes on from where the directory is.** -/
theorem locate_join (hopens : t.Opens directory place) (hname : name ≠ "")
    (hhead : name.toList.head? ≠ some '/') (hnul : '\x00' ∉ name.toList)
    (hlong : (Text.encode (Path.join directory name)).length < Path.lengthLimit)
    (hsteps : (Path.parse name).steps ≠ []) :
    t.locate (Path.join directory name) =
      t.target (Path.parse name).endsInSlash place (Path.parse name).steps := by
  have hpath : ∀ text : String, text ≠ "" → ¬ (Path.parse text).isEmpty = true :=
    fun _ => mt Path.isEmpty_parse_iff.1
  -- Without a directory the path is the name alone. Otherwise the directory was found, and its path
  -- is neither empty, nor too long, nor spoilt by a NUL.
  cases hopens with
  | here =>
    have hstart : (Path.parse name).fromRoot = false := by simpa [Path.parse] using hhead
    rw [Path.join_empty hhead] at hlong ⊢
    rw [locate_eq_follow hnul hlong, follow, if_neg (hpath name hname), hstart]
    rfl
  | there hg hdirectory =>
    rename_i g
    have hplain : '\x00' ∉ directory.toList := by
      intro hmem
      rw [locate_of_nul hmem] at hg
      cases hg
    have hplain' : '\x00' ∉ (Path.join directory name).toList := by
      rw [Path.mem_join (by decide) hhead]
      exact not_or.2 ⟨hplain, hnul⟩
    have hne : directory ≠ "" := by
      intro heq
      subst heq
      cases hg
    have hshort : (Text.encode directory).length < Path.lengthLimit := by
      by_contra hge
      rw [locate, if_neg (mt any_nul_iff.1 hplain), if_pos (Nat.not_lt.1 hge)] at hg
      cases hg
    rw [locate_eq_follow hplain hshort, follow, if_neg (hpath directory hne)] at hg
    rw [locate_eq_follow hplain' hlong, Path.parse_join hne hname hhead, follow,
      if_neg (by simp [Path.isEmpty, hsteps])]
    exact target_append (enterAll_of_target hg hdirectory) hsteps

end Tree

end BoardBench
