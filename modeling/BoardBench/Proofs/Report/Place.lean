import BoardBench.Proofs.Identification
import BoardBench.Proofs.Report.Name
import BoardBench.Proofs.Session.Board
import BoardBench.Proofs.Storage.Directory

/-!
# Where reports go

A report is meant to lie in its directory. Its name is the last step of the path then, and once the
directory was made, the report can be written unless a directory has its name. But the id of the
board is a part of the name, and nearly any text is taken for an id. A slash in it makes two steps
of the name, of which the first is a directory that nobody makes; and with a NUL there is no path at
all. So the ids that are accepted are more than those that reports can be saved under, and which
these are is not found out before the test is over
(`only_slash_and_nul_in_the_id_spoil_a_report`).

Where a report goes is decided by characters of the id, and so the three cases are about characters:
a NUL, no NUL but a slash, neither. In the second case the fate of the report depends on whether
there is a directory by the name that the report has in front of its first slash. Nobody makes one,
but it may be there, so the statement has it as an exception instead of claiming more.

Lengths are a hypothesis (`Fits`). An id may be long enough to spoil a name by itself, and that has
nothing to do with which characters are in it.
-/

set_option autoImplicit false

namespace BoardBench

/-! ## Names of reports as paths -/

/-- Time stamps have no slash in them and no NUL. -/
theorem Stamp.not_mem_render (s : Stamp) {c : Char} (hc : Text.isDecimalDigit c = false)
    (hmark : c ∉ "+-T:.".toList) : c ∉ s.render.toList := by
  have hnumber : ∀ w n, c ∉ (Text.paddedDecimal w n).toList := by
    intro w n hmem
    rw [Text.isDecimalDigit_of_mem_padded hmem] at hc
    cases hc
  have hyear : c ∉ (yearText s.year).toList := by
    rw [toList_yearText, List.mem_append, not_or]
    refine ⟨?_, hnumber _ _⟩
    unfold yearSign
    simp at hmark
    split
    · simp [hmark]
    · split <;> simp [hmark]
  simp at hmark
  simp [render, hyear, hnumber, hmark]

namespace Report

variable {r : Report} {directory : String} {t made : Tree} {place : Place} {front back : List Char}

/-- What stands in front of the id in the name of a report. -/
def lead (r : Report) : List Char :=
  (r.created.render ++ nameMiddle).toList

/-- The name of a report, cut off within the id. -/
def cutName (r : Report) (front : List Char) : String :=
  r.created.render ++ nameMiddle ++ String.ofList front

theorem toList_cutName (r : Report) (front : List Char) :
    (r.cutName front).toList = r.lead ++ front := by
  simp [cutName, lead]

theorem toList_fileName (r : Report) :
    r.fileName.toList = r.lead ++ (r.sutId.toList ++ nameEnd.toList) := by
  simp [fileName, lead]

theorem not_mem_lead {c : Char} (hc : Text.isDecimalDigit c = false)
    (hmark : c ∉ ("+-T:." ++ nameMiddle).toList) : c ∉ r.lead := by
  rw [String.toList_append, List.mem_append, not_or] at hmark
  rw [lead, String.toList_append, List.mem_append, not_or]
  exact ⟨r.created.not_mem_render hc hmark.1, hmark.2⟩

theorem slash_not_mem_lead (r : Report) : '/' ∉ r.lead :=
  not_mem_lead (by decide) (by decide)

theorem underscore_mem_lead (r : Report) : '_' ∈ r.lead := by
  simp [lead, nameMiddle]

theorem slash_mem_fileName_iff : '/' ∈ r.fileName.toList ↔ '/' ∈ r.sutId.toList := by
  have hend : '/' ∉ nameEnd.toList := by decide
  simp [toList_fileName, r.slash_not_mem_lead, hend]

theorem nul_mem_fileName_iff : '\x00' ∈ r.fileName.toList ↔ '\x00' ∈ r.sutId.toList := by
  have hlead : '\x00' ∉ r.lead := not_mem_lead (by decide) (by decide)
  have hend : '\x00' ∉ nameEnd.toList := by decide
  simp [toList_fileName, hlead, hend]

theorem fileName_ne (r : Report) : r.fileName ≠ "" := by
  intro h
  have hnil := r.toList_fileName
  rw [h] at hnil
  exact List.ne_nil_of_mem r.underscore_mem_lead (List.append_eq_nil_iff.1 hnil.symm).1

theorem head?_fileName (r : Report) : r.fileName.toList.head? ≠ some '/' := by
  obtain ⟨c, cs, hlead⟩ := List.exists_cons_of_ne_nil (List.ne_nil_of_mem r.underscore_mem_lead)
  intro h
  rw [toList_fileName, hlead, List.cons_append, List.head?_cons, Option.some.injEq] at h
  apply r.slash_not_mem_lead
  rw [hlead, h]
  exact List.mem_cons_self

theorem endsInSlash_fileName (r : Report) : (Path.parse r.fileName).endsInSlash = false := by
  have hend : nameEnd.toList ≠ [] := by decide
  rw [Path.parse, toList_fileName, ← List.append_assoc, List.getLast?_append_of_ne_nil _ hend]
  rfl

/-- Without a slash in the id, the name is one step. -/
theorem steps_fileName (h : '/' ∉ r.sutId.toList) :
    (Path.parse r.fileName).steps = [r.fileName] := by
  rw [Path.parse_steps, Path.stepsOf_of_notMem (mt slash_mem_fileName_iff.1 h)
    (mt String.toList_eq_nil_iff.1 r.fileName_ne), String.ofList_toList]

/-- With a slash in the id, the name is cut there, and more steps follow. -/
theorem steps_fileName_of_slash (h : r.sutId.toList = front ++ '/' :: back) (hfront : '/' ∉ front) :
    ∃ more, more ≠ [] ∧
      (Path.parse r.fileName).steps = r.cutName front :: more := by
  refine ⟨Path.stepsOf (back ++ nameEnd.toList), ?_, ?_⟩
  · have hmem : 't' ∈ back ++ nameEnd.toList := List.mem_append_right _ (by decide)
    exact Path.stepsOf_ne_nil hmem (by decide)
  · have hcut : r.fileName.toList =
        (r.cutName front).toList ++ '/' :: (back ++ nameEnd.toList) := by
      rw [toList_fileName, toList_cutName, h]
      simp
    have hplain : '/' ∉ (r.cutName front).toList := by
      rw [toList_cutName, List.mem_append, not_or]
      exact ⟨r.slash_not_mem_lead, hfront⟩
    have hne : (r.cutName front).toList ≠ [] := by
      rw [toList_cutName]
      exact List.append_ne_nil_of_left_ne_nil (List.ne_nil_of_mem r.underscore_mem_lead) _
    rw [Path.parse_steps, hcut, Path.stepsOf_append_slash, Path.stepsOf_of_notMem hplain hne,
      String.ofList_toList]
    rfl

/-- A step that starts like the name of a report neither stays nor goes up. -/
theorem cutName_proper (r : Report) (front : List Char) :
    ¬(r.cutName front = Path.stay ∨ r.cutName front = Path.up) := by
  have hmem : '_' ∈ (r.cutName front).toList := by
    rw [toList_cutName]
    exact List.mem_append_left _ r.underscore_mem_lead
  intro h
  obtain heq | heq := h
  · rw [heq] at hmem
    exact absurd hmem (by decide)
  · rw [heq] at hmem
    exact absurd hmem (by decide)

/-! ## Saving -/

/-- The path and the steps of the name are not too long. -/
structure Fits (r : Report) (directory : String) : Prop where
  path : (Text.encode (r.pathIn directory)).length < Path.lengthLimit
  steps : ∀ step ∈ (Path.parse r.fileName).steps, Path.stepTooLong step = false

theorem locate_pathIn (hopens : made.Opens directory place) (hnul : '\x00' ∉ r.sutId.toList)
    (hfits : r.Fits directory) : made.locate (r.pathIn directory) =
      made.target false place (Path.parse r.fileName).steps := by
  have hsteps : (Path.parse r.fileName).steps ≠ [] := by
    have hmem : '_' ∈ r.fileName.toList := by
      rw [toList_fileName]
      exact List.mem_append_left _ r.underscore_mem_lead
    rw [Path.parse_steps]
    exact Path.stepsOf_ne_nil hmem (by decide)
  rw [pathIn, Tree.locate_join hopens r.fileName_ne r.head?_fileName
    (mt nul_mem_fileName_iff.1 hnul) hfits.path hsteps, endsInSlash_fileName]

theorem save_of_written {written : Tree} (h : t.makeDirectories directory = (.ok (), made))
    (hwrite : made.write (r.pathIn directory) (Text.encode r.contents) = .ok written) :
    r.save Tree.storage directory t = (.ok (r.pathIn directory), written) := by
  simp [save_tree, h, hwrite]

theorem save_of_refused {f : StorageFailure} (h : t.makeDirectories directory = (.ok (), made))
    (hwrite : made.write (r.pathIn directory) (Text.encode r.contents) = .error f) :
    r.save Tree.storage directory t = (.error (.report (r.pathIn directory) f), made) := by
  simp [save_tree, h, hwrite]

/-- **With a NUL in the id, the report is lost.** -/
theorem save_of_nul (h : t.makeDirectories directory = (.ok (), made))
    (hnul : '\x00' ∈ r.sutId.toList) :
    r.save Tree.storage directory t =
      (.error (.report (r.pathIn directory) .nulInPath), made) := by
  have hmem : '\x00' ∈ (r.pathIn directory).toList :=
    (Path.mem_join (by decide) r.head?_fileName).2 (Or.inr (nul_mem_fileName_iff.2 hnul))
  apply save_of_refused h
  rw [Tree.write, Tree.locate_of_nul hmem]

/-- **With neither a NUL nor a slash in the id, the report is written in its directory**, unless
there is a directory of its name. -/
theorem save_in_place (h : t.makeDirectories directory = (.ok (), made))
    (hopens : made.Opens directory place) (hnul : '\x00' ∉ r.sutId.toList)
    (hslash : '/' ∉ r.sutId.toList) (hfits : r.Fits directory) :
    r.save Tree.storage directory t =
      match made.get? (place ++ [r.fileName]) with
      | some .directory => (.error (.report (r.pathIn directory) .isDirectory), made)
      | some (.terminal _) => (.ok (r.pathIn directory), made)
      | _ => (.ok (r.pathIn directory),
          made.set (place ++ [r.fileName]) (.file (Text.encode r.contents))) := by
  have hname : r.fileName = r.cutName (r.sutId.toList ++ nameEnd.toList) := by
    rw [← String.toList_inj, toList_fileName, toList_cutName]
  have hshort : Path.stepTooLong r.fileName = false :=
    hfits.steps _ (by simp [steps_fileName hslash])
  have hlocate : made.locate (r.pathIn directory) = .ok ⟨place ++ [r.fileName], false⟩ := by
    rw [locate_pathIn hopens hnul hfits, steps_fileName hslash, Tree.target,
      if_neg (hname ▸ r.cutName_proper _), if_neg (Bool.eq_false_iff.1 hshort)]
  cases hthere : made.get? (place ++ [r.fileName]) with
  | none => exact save_of_written h (by simp [Tree.write, hlocate, hthere])
  | some entry =>
    cases entry with
    | file bytes => exact save_of_written h (by simp [Tree.write, hlocate, hthere])
    | directory => exact save_of_refused h (by simp [Tree.write, hlocate, hthere])
    | terminal number => exact save_of_written h (by simp [Tree.write, hlocate, hthere])

/-- **With a slash in the id, the report is lost**, unless there is a directory whose name is the
part of the report's name before the slash. -/
theorem save_of_slash (h : t.makeDirectories directory = (.ok (), made))
    (hopens : made.Opens directory place) (hnul : '\x00' ∉ r.sutId.toList)
    (hid : r.sutId.toList = front ++ '/' :: back) (hfront : '/' ∉ front)
    (hfits : r.Fits directory)
    (hnone : made.get? (place ++ [r.cutName front]) = none) :
    r.save Tree.storage directory t = (.error (.report (r.pathIn directory) .notFound), made) := by
  obtain ⟨more, hmore, hsteps⟩ := steps_fileName_of_slash hid hfront
  obtain ⟨hstay, hup⟩ := not_or.1 (r.cutName_proper front)
  have hshort : Path.stepTooLong (r.cutName front) = false :=
    hfits.steps _ (by simp [hsteps])
  have hstep : made.enter place (r.cutName front) = .error .notFound := by
    simp [Tree.enter, hstay, hup, hshort, hnone]
  have hlocate : made.locate (r.pathIn directory) = .error .notFound := by
    rw [locate_pathIn hopens hnul hfits, hsteps, Tree.target, hstep]
    exact hmore
  apply save_of_refused h
  rw [Tree.write, hlocate]

end Report

/-! ## Accepted ids -/

namespace Identity

/-- Boards whose log consists of readable lines are identified, the board under test by this id. -/
def Accepted (id : String) : Prop :=
  ∃ log i, (∀ e ∈ log, ∃ line, Line.parse line = .ok (.event e)) ∧ ofLog log = .ok i ∧
    i.sutId = id

/-- An id ends like its payload, and so not with a blank. -/
theorem getLast?_idOf {e : Event} (h : e.Legible) :
    ∃ c, (idOf e).toList.getLast? = some c ∧ Text.isBlank c = false := by
  obtain ⟨c, hc⟩ := Option.ne_none_iff_exists'.1 h.lastChar_ne_none
  have hblank : Text.isBlank c = false := h.payload_last c hc
  obtain ⟨hlead, hbare⟩ := idOf_eq e
  refine ⟨c, ?_, hblank⟩
  by_cases hfront : "id: ".toList <+: e.payload.toList
  · obtain ⟨rest, hrest⟩ := hfront
    have hne : rest ≠ [] := by
      intro hnil
      rw [Event.lastChar, ← hrest, hnil] at hc
      cases hc
      cases hblank
    rw [hlead rest hrest.symm, String.toList_ofList, ← hc, Event.lastChar, ← hrest,
      List.getLast?_append_of_ne_nil _ hne]
  · rw [hbare hfront]
    exact hc

/-- **Any text is accepted as an id, unless nothing is there or a blank is at its end.** -/
theorem accepted_iff {id : String} :
    Accepted id ↔ ∃ c, id.toList.getLast? = some c ∧ Text.isBlank c = false := by
  constructor
  · intro ⟨log, i, hread, hlog, hid⟩
    obtain ⟨-, -, hsut, -⟩ := ofLog_eq_ok_iff.1 hlog
    have hids : i.sut ∈ idEvents log := by
      refine (List.mem_filter (p := (·.isFrom .sut))).1 ?_ |>.1
      rw [hsut]
      exact List.mem_singleton_self _
    obtain ⟨line, hline⟩ := hread i.sut (List.mem_filter.1 hids).1
    rw [← hid]
    exact getLast?_idOf (Line.legible_of_parse hline)
  · intro ⟨c, hlast, hc⟩
    -- each board sends the start message, its id and the stop message
    let stream := fun (r : Role) (id : String) => [(⟨0, .inf, r.tag, bracket.start⟩ : Event),
      r.idEvent 0 id, ⟨0, .inf, r.tag, bracket.stop⟩]
    have hstream : ∀ r id, bracket.Frames r [r.idEvent 0 id] (stream r id) :=
      fun r id => ⟨0, 0, rfl⟩
    have hlegible : ∀ r id c, id.toList.getLast? = some c → Text.isBlank c = false →
        ∀ e ∈ stream r id, e.Legible := by
      intro r id c hlast hc
      refine ((hstream r id).ends List.mem_cons_self ?_).legible
      intro e he
      rw [List.mem_singleton.1 he]
      exact ⟨Role.legible_idEvent hlast hc, Role.idEvent_ne_stop List.mem_cons_self⟩
    refine ⟨stream .sut id ++ stream .tester "0", _, ?_, ofLog_of_frames (hstream .sut id)
      (hstream .tester "0") (Interleaving.append _ _), Role.idOf_idEvent .sut 0 id⟩
    intro e he
    refine ⟨e.wire, Line.parse_wire ?_⟩
    obtain hmem | hmem := List.mem_append.1 he
    · exact hlegible .sut id c hlast hc e hmem
    · exact hlegible .tester "0" '0' (by decide) (by decide) e hmem

end Identity

/-- **A slash or a NUL in the id spoils the report, and no other character does.** The boards are
identified whatever the id of the board under test is, if it does not end with a blank. The name of
the report has a slash or a NUL in it exactly if the id has. Let the directory of the report be
made, wherever it is: with a NUL in the id, there is no path to write to. Otherwise, if nothing is
too long, then the report is written in its directory under its name if there is no slash in the id;
and if there is one, the report is lost, unless there is already a directory that is called as the
name is up to the slash. -/
theorem only_slash_and_nul_in_the_id_spoil_a_report (r : Report) :
    (Identity.Accepted r.sutId ↔
      ∃ c, r.sutId.toList.getLast? = some c ∧ Text.isBlank c = false) ∧
    ('/' ∈ r.fileName.toList ↔ '/' ∈ r.sutId.toList) ∧
    ('\x00' ∈ r.fileName.toList ↔ '\x00' ∈ r.sutId.toList) ∧
    ∀ (directory : String) (t made : Tree), t.makeDirectories directory = (.ok (), made) →
      ('\x00' ∈ r.sutId.toList → r.save Tree.storage directory t =
        (.error (.report (r.pathIn directory) .nulInPath), made)) ∧
      ∃ place, made.Opens directory place ∧
        ('\x00' ∉ r.sutId.toList → r.Fits directory →
          ('/' ∉ r.sutId.toList → r.save Tree.storage directory t =
            match made.get? (place ++ [r.fileName]) with
            | some .directory => (.error (.report (r.pathIn directory) .isDirectory), made)
            | some (.terminal _) => (.ok (r.pathIn directory), made)
            | _ => (.ok (r.pathIn directory),
                made.set (place ++ [r.fileName]) (.file (Text.encode r.contents)))) ∧
          ∀ front back, r.sutId.toList = front ++ '/' :: back → '/' ∉ front →
            made.get? (place ++ [r.cutName front]) = none →
            r.save Tree.storage directory t =
              (.error (.report (r.pathIn directory) .notFound), made)) := by
  refine ⟨Identity.accepted_iff, Report.slash_mem_fileName_iff, Report.nul_mem_fileName_iff, ?_⟩
  intro directory t made hmade
  refine ⟨Report.save_of_nul hmade, ?_⟩
  -- the directory was made, so its path can be followed to a place
  obtain ⟨place, hopens⟩ := Tree.opens_of_makeDirectories hmade
  refine ⟨place, hopens, ?_⟩
  intro hnul hfits
  constructor
  · intro hslash
    exact Report.save_in_place hmade hopens hnul hslash hfits
  · intro front back hid hfront hnone
    exact Report.save_of_slash hmade hopens hnul hid hfront hfits hnone

/-- A report about a board with this id. -/
def reportAbout (sutId : String) : Report :=
  { created := ⟨2024, 5, 17, 9, 3, 7, 0⟩, sutId, summaries := [], transcripts := [] }

/-- The directory is made where nothing was. -/
def newDirectory : Tree :=
  { entries := [(["out"], .directory)] }

/-- The report about a board with a hexadecimal id is in its directory. -/
theorem hexId_report_is_in_its_directory :
    Identity.Accepted "00aa" ∧ ({} : Tree).makeDirectories "out" = (.ok (), newDirectory) ∧
      (reportAbout "00aa").save Tree.storage "out" {} =
        (.ok "out/2024-05-17T09:03:07.000000_ardep_board_00aa_hw_test_results.txt",
          newDirectory.set
            ["out", "2024-05-17T09:03:07.000000_ardep_board_00aa_hw_test_results.txt"]
            (.file (Text.encode (reportAbout "00aa").contents))) := by
  obtain ⟨hid, -, -, hsave⟩ := only_slash_and_nul_in_the_id_spoil_a_report (reportAbout "00aa")
  have hmade : ({} : Tree).makeDirectories "out" = (.ok (), newDirectory) := by decide +kernel
  obtain ⟨-, place, hopens, hplain⟩ := hsave "out" {} newDirectory hmade
  have hlocate : newDirectory.locate "out" = .ok ⟨["out"], false⟩ := by decide +kernel
  have hfits : (reportAbout "00aa").Fits "out" := ⟨by decide +kernel, by decide +kernel⟩
  have hname : (reportAbout "00aa").fileName =
      "2024-05-17T09:03:07.000000_ardep_board_00aa_hw_test_results.txt" := by decide +kernel
  have hpath : (reportAbout "00aa").pathIn "out" =
      "out/2024-05-17T09:03:07.000000_ardep_board_00aa_hw_test_results.txt" := by decide +kernel
  refine ⟨hid.2 ⟨'a', by decide, by decide⟩, hmade, ?_⟩
  rw [(hplain (by decide) hfits).1 (by decide), hopens.place_eq hlocate, hname, hpath]
  have hnone : newDirectory.get? (["out"] ++
      ["2024-05-17T09:03:07.000000_ardep_board_00aa_hw_test_results.txt"]) = none := by
    decide +kernel
  rw [hnone]
  rfl

/-- Two boards tell their ids, one of them with a slash in it. -/
def slashedLog : List Event :=
  [⟨5, .inf, "sut", "id: a/b"⟩, ⟨5, .inf, "tester", "id: 2c3d"⟩]

/-- **The id with a slash is accepted, and no report can be written under it.** -/
theorem slashedId_is_accepted_and_its_report_is_lost :
    (∀ e ∈ slashedLog, ∃ line, Line.parse line = .ok (.event e)) ∧
    ∃ i, Identity.ofLog slashedLog = .ok i ∧
      '/' ∈ (reportAbout i.sutId).fileName.toList ∧
      ((reportAbout i.sutId).save Tree.storage "out" {}).1 = .error (.report
        "out/2024-05-17T09:03:07.000000_ardep_board_a/b_hw_test_results.txt" .notFound) := by
  constructor
  · intro e he
    refine ⟨e.wire, ?_⟩
    revert e
    decide +kernel
  · refine ⟨⟨slashedLog, ⟨5, .inf, "sut", "id: a/b"⟩, ⟨5, .inf, "tester", "id: 2c3d"⟩⟩,
      by decide +kernel, by decide +kernel, ?_⟩
    decide +kernel

end BoardBench
