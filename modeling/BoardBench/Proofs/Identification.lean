import BoardBench.Identity
import Mathlib.Data.List.Infix
import Mathlib.Data.List.Perm.Basic

/-!
# Identification — which logs tell who the boards are, and what is said of the others

Only the id events of a log count, and of these how many there are, and how many from each role.
`RoleProblem.ofCount` is what is wrong with the id events of one role, by their number. **A log with
two of them identifies the boards if there is one from each role, and otherwise all that is wrong
with either role is reported, not what was found first** (`Identity.ofLog_eq_roles_iff`). If there
are not two, that is reported instead, whatever roles they come from.

As only numbers count, another order of the log makes no difference to the outcome
(`Identity.alike_of_perm`).

The outcome is compared by a relation (`Alike`), since two parts of it do depend on the order of the
log: the log itself, which is kept with the identities, and the list of the id events when their
number is wrong. All that a user is told about the boards does not.

The reference goes by numbers, where the code searches: for each role it takes the first id event
and then looks whether there is another one. That the two agree for any number of events is the one
lemma about lists here, and all of the rest is arithmetic on two counts.
-/

set_option autoImplicit false

namespace BoardBench

/-- What is wrong with the id events of a role, of which there are so many. -/
def RoleProblem.ofCount (r : Role) : Nat → Option RoleProblem
  | 0 => some (.missing r)
  | 1 => none
  | n => some (.duplicate r n)

theorem RoleProblem.ofCount_eq_none_iff {r : Role} {n : Nat} : ofCount r n = none ↔ n = 1 := by
  match n with
  | 0 => exact ⟨nofun, nofun⟩
  | 1 => exact ⟨fun _ => rfl, fun _ => rfl⟩
  | n + 2 => exact ⟨nofun, fun h => by omega⟩

namespace Identity

variable {r : Role} {ids log log' : List Event} {e : Event} {i : Identity}

/-- How many id events of a log come from a role. -/
def countFrom (r : Role) (log : List Event) : Nat :=
  ((idEvents log).filter (·.isFrom r)).length

/-- What is wrong with the roles of the id events of a log. -/
def problems (log : List Event) : List RoleProblem :=
  [Role.sut, .tester].filterMap fun r => RoleProblem.ofCount r (countFrom r log)

theorem idEvents_eq (log : List Event) :
    idEvents log = log.filter fun e => decide (marker.toList <:+: e.payload.toList) := by
  refine List.filter_congr fun e _ => ?_
  rw [Bool.eq_iff_iff, decide_eq_true_iff]
  exact Text.occursIn_iff

/-! ## One role -/

/-- The only id event of a role is found if it is the only one … -/
theorem single_eq_ok_iff : single r ids = .ok e ↔ ids.filter (·.isFrom r) = [e] := by
  unfold single
  split
  · rename_i hnil
    simp [hnil]
  · rename_i e' hone
    simp [hone]
  · rename_i many hnil hone
    exact ⟨nofun, fun h => absurd h (hone e)⟩

/-- … and otherwise their number says what is wrong. -/
theorem single_eq_error_iff {p : RoleProblem} : single r ids = .error p ↔
    RoleProblem.ofCount r (ids.filter (·.isFrom r)).length = some p := by
  unfold single
  split
  · rename_i hnil
    simp [hnil, RoleProblem.ofCount]
  · rename_i e hone
    simp [hone, RoleProblem.ofCount]
  · rename_i many hnil hone
    generalize ids.filter (·.isFrom r) = found at hnil hone
    match found with
    | [] => exact (hnil rfl).elim
    | [e] => exact (hone e rfl).elim
    | e :: e' :: rest => simp [RoleProblem.ofCount]

/-! ## Both roles -/

theorem ofLog_of_length_ne (h : (idEvents log).length ≠ 2) :
    ofLog log = .error (.messageCount (idEvents log)) :=
  if_pos h

/-- With two id events, what each role says is put together. -/
theorem ofLog_of_length (h : (idEvents log).length = 2) : ofLog log =
    match single .sut (idEvents log), single .tester (idEvents log) with
    | .ok sut, .ok tester => .ok { log, sut, tester }
    | .error p, .ok _ => .error (.roles [p])
    | .ok _, .error p => .error (.roles [p])
    | .error p, .error q => .error (.roles [p, q]) :=
  if_neg (not_not.2 h)

theorem ofLog_eq_messageCount_iff {found : List Event} :
    ofLog log = .error (.messageCount found) ↔
      (idEvents log).length ≠ 2 ∧ found = idEvents log := by
  by_cases hlength : (idEvents log).length = 2
  · rw [ofLog_of_length hlength]
    refine ⟨fun h => ?_, fun h => absurd hlength h.1⟩
    split at h <;> cases h
  · rw [ofLog_of_length_ne hlength]
    constructor
    · intro h
      cases h
      exact ⟨hlength, rfl⟩
    · rintro ⟨-, rfl⟩
      rfl

theorem ofLog_eq_ok_iff : ofLog log = .ok i ↔
    (idEvents log).length = 2 ∧ i.log = log ∧
      (idEvents log).filter (·.isFrom .sut) = [i.sut] ∧
      (idEvents log).filter (·.isFrom .tester) = [i.tester] := by
  by_cases hlength : (idEvents log).length = 2
  · rw [ofLog_of_length hlength, ← single_eq_ok_iff, ← single_eq_ok_iff]
    simp only [hlength, true_and]
    split
    · rename_i sut tester hsut htester
      rw [hsut, htester]
      constructor
      · intro h
        cases h
        exact ⟨rfl, rfl, rfl⟩
      · rintro ⟨rfl, hs, ht⟩
        cases hs
        cases ht
        rfl
    · rename_i hsut _
      rw [hsut]
      exact ⟨nofun, fun h => nomatch h.2.1⟩
    · rename_i _ htester
      rw [htester]
      exact ⟨nofun, fun h => nomatch h.2.2⟩
    · rename_i hsut _
      rw [hsut]
      exact ⟨nofun, fun h => nomatch h.2.1⟩
  · rw [ofLog_of_length_ne hlength]
    exact ⟨nofun, fun h => absurd h.1 hlength⟩

/-- What a role contributes to the problems of a log. -/
theorem ofCount_of_single (r : Role) (log : List Event) :
    RoleProblem.ofCount r (countFrom r log) =
      match single r (idEvents log) with
      | .ok _ => none
      | .error p => some p := by
  cases hsingle : single r (idEvents log) with
  | ok e =>
    rw [countFrom, single_eq_ok_iff.1 hsingle]
    rfl
  | error p => exact single_eq_error_iff.1 hsingle

theorem problems_eq_nil_iff : problems log = [] ↔ ∀ r, countFrom r log = 1 := by
  rw [problems, List.filterMap_eq_nil_iff]
  constructor
  · intro h r
    have hnone : RoleProblem.ofCount r (countFrom r log) = none := h r (by cases r <;> simp)
    exact RoleProblem.ofCount_eq_none_iff.1 hnone
  · intro h r _
    exact RoleProblem.ofCount_eq_none_iff.2 (h r)

/-- **All that is wrong with either role is reported**, if there is anything. -/
theorem ofLog_eq_roles_iff {ps : List RoleProblem} : ofLog log = .error (.roles ps) ↔
    (idEvents log).length = 2 ∧ ps ≠ [] ∧ ps = problems log := by
  have hreport : ∀ {qs : List RoleProblem}, qs ≠ [] →
      ((.error (.roles qs) : Except IdentityError Identity) = .error (.roles ps) ↔
        ps ≠ [] ∧ ps = qs) := by
    intro qs hqs
    constructor
    · intro h
      cases h
      exact ⟨hqs, rfl⟩
    · rintro ⟨-, rfl⟩
      rfl
  by_cases hlength : (idEvents log).length = 2
  · rw [ofLog_of_length hlength, problems]
    simp only [hlength, true_and, List.filterMap_cons, List.filterMap_nil, ofCount_of_single]
    cases single .sut (idEvents log) with
    | ok sut =>
      cases single .tester (idEvents log) with
      | ok tester => exact ⟨nofun, fun h => absurd h.2 h.1⟩
      | error q => exact hreport (List.cons_ne_nil _ _)
    | error p =>
      cases single .tester (idEvents log) with
      | ok tester => exact hreport (List.cons_ne_nil _ _)
      | error q => exact hreport (List.cons_ne_nil _ _)
  · rw [ofLog_of_length_ne hlength]
    exact ⟨nofun, fun h => absurd h.1 hlength⟩

/-- The boards are identified if each role has one of the two id events. -/
theorem exists_ok_iff (hlength : (idEvents log).length = 2) :
    (∃ i, ofLog log = .ok i) ↔ ∀ r, countFrom r log = 1 := by
  rw [← problems_eq_nil_iff]
  constructor
  · rintro ⟨i, hi⟩
    by_contra hne
    cases hi.symm.trans (ofLog_eq_roles_iff.2 ⟨hlength, hne, rfl⟩)
  · intro hnil
    cases hlog : ofLog log with
    | ok i => exact ⟨i, rfl⟩
    | error e =>
      cases e with
      | messageCount found => exact absurd hlength (ofLog_eq_messageCount_iff.1 hlog).1
      | roles ps =>
        obtain ⟨-, hne, rfl⟩ := ofLog_eq_roles_iff.1 hlog
        exact absurd hnil hne

/-! ## The ids -/

/-- The id is what follows the lead, and the whole payload if that does not start with it. -/
theorem idOf_eq (e : Event) :
    (∀ rest, e.payload.toList = "id: ".toList ++ rest → idOf e = String.ofList rest) ∧
      (¬ "id: ".toList <+: e.payload.toList → idOf e = e.payload) := by
  constructor
  · intro rest hpayload
    rw [idOf, Text.withoutLead, if_pos, hpayload, List.drop_left]
    rw [List.isPrefixOf_iff_prefix, hpayload]
    exact List.prefix_append _ _
  · intro hnot
    rw [idOf, Text.withoutLead, if_neg]
    rw [List.isPrefixOf_iff_prefix]
    exact hnot

/-! ## The order of a log -/

/-- Outcomes that differ at most in the log that is kept, and in the order in which too few or too
many id events are listed. -/
def Alike : Except IdentityError Identity → Except IdentityError Identity → Prop
  | .ok i, .ok j => i.sut = j.sut ∧ i.tester = j.tester
  | .error (.messageCount found), .error (.messageCount found') => found.Perm found'
  | .error (.roles ps), .error (.roles ps') => ps = ps'
  | _, _ => False

theorem idEvents_perm (h : log.Perm log') : (idEvents log).Perm (idEvents log') :=
  h.filter _

theorem countFrom_perm (h : log.Perm log') (r : Role) : countFrom r log = countFrom r log' :=
  ((idEvents_perm h).filter _).length_eq

theorem problems_perm (h : log.Perm log') : problems log = problems log' :=
  List.filterMap_congr fun r _ => by rw [countFrom_perm h]

/-- The only id event of a role is the same in another order. -/
theorem eq_of_perm {e' : Event} (h : log.Perm log')
    (he : (idEvents log).filter (·.isFrom r) = [e])
    (he' : (idEvents log').filter (·.isFrom r) = [e']) : e = e' := by
  have hids := (idEvents_perm h).filter (·.isFrom r)
  rw [he, he'] at hids
  exact List.singleton_injective (List.perm_singleton.1 hids)

/-- **Another order of a log makes no difference.** -/
theorem alike_of_perm (h : log.Perm log') : Alike (ofLog log) (ofLog log') := by
  by_cases hlength : (idEvents log).length = 2
  · have hlength' : (idEvents log').length = 2 := (idEvents_perm h).length_eq ▸ hlength
    by_cases hnil : problems log = []
    · have hone := problems_eq_nil_iff.1 hnil
      obtain ⟨i, hi⟩ := (exists_ok_iff hlength).2 hone
      obtain ⟨j, hj⟩ := (exists_ok_iff hlength').2 fun r => countFrom_perm h r ▸ hone r
      obtain ⟨-, -, hsut, htester⟩ := ofLog_eq_ok_iff.1 hi
      obtain ⟨-, -, hsut', htester'⟩ := ofLog_eq_ok_iff.1 hj
      rw [hi, hj]
      exact ⟨eq_of_perm h hsut hsut', eq_of_perm h htester htester'⟩
    · have hnil' : problems log' ≠ [] := problems_perm h ▸ hnil
      rw [ofLog_eq_roles_iff.2 ⟨hlength, hnil, rfl⟩, ofLog_eq_roles_iff.2 ⟨hlength', hnil', rfl⟩]
      exact problems_perm h
  · have hlength' : (idEvents log').length ≠ 2 := (idEvents_perm h).length_eq ▸ hlength
    rw [ofLog_of_length_ne hlength, ofLog_of_length_ne hlength']
    exact idEvents_perm h

/-- **Exactly the right logs identify the boards, and of every other one all problems are
reported.** Id events are those whose payload has the marker in it. If there are not two, they are
listed, in order. If there are two, one from each role, the boards are identified: their ids are the
payloads, without the lead if there is one, and the log is kept. Otherwise what is wrong with the
roles is listed, the board under test first: that a role is missing, or how many id events it has,
and nothing of a role that has one. None of this depends on the order of the log. -/
theorem ids_are_accepted_or_all_problems_reported (log : List Event) :
    idEvents log = log.filter (fun e => decide ("id:".toList <:+: e.payload.toList)) ∧
    (∀ r, countFrom r log =
      ((idEvents log).filter fun e => Text.foldCase e.device == Text.foldCase r.tag).length) ∧
    (∀ found, ofLog log = .error (.messageCount found) ↔
      (idEvents log).length ≠ 2 ∧ found = idEvents log) ∧
    (IdentityError.messageCount (idEvents log)).message =
      "Error reading hardware information. Expected 2 messages. Got " ++
        Text.decimal (idEvents log).length ++ ": [" ++
        Text.joined "; " ((idEvents log).map Event.wire) ++ "]" ∧
    ((idEvents log).length = 2 → ((∃ i, ofLog log = .ok i) ↔ ∀ r, countFrom r log = 1)) ∧
    (∀ i, ofLog log = .ok i → i.log = log ∧
      (idEvents log).filter (·.isFrom .sut) = [i.sut] ∧
      (idEvents log).filter (·.isFrom .tester) = [i.tester] ∧
      ∀ x ∈ [(i.sut, i.sutId), (i.tester, i.testerId)],
        (∀ rest, x.1.payload.toList = "id: ".toList ++ rest → x.2 = String.ofList rest) ∧
        (¬ "id: ".toList <+: x.1.payload.toList → x.2 = x.1.payload)) ∧
    (∀ ps, ofLog log = .error (.roles ps) ↔ (idEvents log).length = 2 ∧ ps ≠ [] ∧
      ps = [Role.sut, .tester].filterMap fun r =>
        match countFrom r log with
        | 0 => some (.missing r)
        | 1 => none
        | n => some (.duplicate r n)) ∧
    ∀ log', log.Perm log' → Alike (ofLog log) (ofLog log') := by
  refine ⟨idEvents_eq log, fun r => rfl, fun found => ofLog_eq_messageCount_iff, rfl,
    exists_ok_iff, fun i hi => ?_, fun ps => ofLog_eq_roles_iff, fun log' => alike_of_perm⟩
  -- everything but the ids has been shown above of the list of id events
  obtain ⟨-, hlog, hsut, htester⟩ := ofLog_eq_ok_iff.1 hi
  refine ⟨hlog, hsut, htester, fun x hx => ?_⟩
  simp only [List.mem_cons, List.not_mem_nil, or_false] at hx
  rcases hx with rfl | rfl
  · exact idOf_eq i.sut
  · exact idOf_eq i.tester

/-- Both boards tell their ids, one in capitals and one without the lead, and a third device speaks
of an id without the marker. -/
def toldLog : List Event :=
  [⟨3, .inf, "Tester", "my id:99cc"⟩, ⟨4, .inf, "probe", "id 7"⟩, ⟨5, .inf, "SUT", "id: 00aa"⟩]

/-- The same two ids, but both from the board under test. -/
def claimedTwice : List Event :=
  [⟨3, .inf, "sut", "id: 99cc"⟩, ⟨5, .inf, "SUT", "id: 00aa"⟩]

/-- The boards are identified in the other order as well, and of the other log two things are said
at once. -/
theorem toldLog_is_accepted :
    (∃ i, ofLog toldLog = .ok i ∧ i.sutId = "00aa" ∧ i.testerId = "my id:99cc") ∧
    Alike (ofLog toldLog) (ofLog toldLog.reverse) ∧
    ofLog claimedTwice = .error (.roles [.duplicate .sut 2, .missing .tester]) := by
  obtain ⟨-, -, -, -, hok, hids, -, hperm⟩ := ids_are_accepted_or_all_problems_reported toldLog
  obtain ⟨-, -, -, -, -, -, hroles, -⟩ := ids_are_accepted_or_all_problems_reported claimedTwice
  obtain ⟨i, hi⟩ := (hok (by decide)).2 fun r => by cases r <;> decide
  obtain ⟨-, hsut, htester, hpayload⟩ := hids i hi
  have hsut : i.sut = ⟨5, .inf, "SUT", "id: 00aa"⟩ := (List.cons.inj hsut).1.symm
  have htester : i.tester = ⟨3, .inf, "Tester", "my id:99cc"⟩ := (List.cons.inj htester).1.symm
  refine ⟨⟨i, hi, ?_, ?_⟩, hperm _ (List.reverse_perm _).symm, (hroles _).2 (by decide)⟩
  · have hlead : i.sut.payload.toList = "id: ".toList ++ "00aa".toList := by
      rw [hsut]
      decide
    exact (hpayload (i.sut, i.sutId) (by simp)).1 _ hlead
  · have hbare : ¬ "id: ".toList <+: i.tester.payload.toList := by
      rw [htester]
      decide
    exact ((hpayload (i.tester, i.testerId) (by simp)).2 hbare).trans (by rw [htester])

end Identity

end BoardBench
