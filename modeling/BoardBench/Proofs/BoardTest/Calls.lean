import BoardBench.BoardTest
import Mathlib.Data.List.Infix

/-!
# Calls — a board test as its executor sees it

A board test does nothing but call its executor, one call after the other. The executor may be
anything: its calls are steps on a state of its own, which answer, fail, or never return.
`Executor.recorded` keeps a history of the calls beside that state. What can be said of the history
is said with `Makes`, which goes through the test call by call (`Makes.bind`).

There is a plan of what is to be called, and **a test follows it up to the first call that does not
succeed** (`BoardTest.makes_run`). What the evaluations find makes no difference to it.

The executor is any type of steps with a state of its own (`Steps`), since this is the only way to
say that nothing about the devices matters here. Its history is kept beside that state by a second
executor which does the same steps and writes them down. The test is run twice, with and without the
notes, and `Makes` says that both runs agree: so what is proved of the notes is proved of the test
that runs, and not of a copy of it.

A plan is a list of requests, and the two ways to end along it are two definitions. `Whole` is about
all of it, and `Cut` about a front of it with a last call that did not succeed. What is to be said
of a test that broke off is said of that call, so that it has to be told apart from the others.
-/

set_option autoImplicit false

namespace BoardBench

/-- The phases of a board test, in order. -/
def BoardTest.phases : List Bracket :=
  Identity.bracket :: Subsystem.executionOrder.map Subsystem.bracket

/-! ## Requests and calls -/

/-- How an activity ended, apart from its value. -/
def Ending.void {ε α : Type} : Ending ε α → Ending ε Unit
  | .done _ => .done ()
  | .failed e => .failed e
  | .stalled => .stalled

/-- What a board test asks of its executor. -/
inductive Request where
  | idle
  | phase (b : Bracket)
deriving Repr, DecidableEq

/-- A request, with what it came to. -/
inductive Call where
  | idle (ending : Ending BenchError Unit)
  | phase (b : Bracket) (ending : Ending BenchError (List Event))
deriving Repr, DecidableEq

namespace Call

def request : Call → Request
  | .idle _ => .idle
  | .phase b _ => .phase b

/-- How the call ended, apart from what it answered. -/
def ending : Call → Ending BenchError Unit
  | .idle e => e.void
  | .phase _ e => e.void

/-- The log that the call answered, if it ran a phase. -/
def log? : Call → Option (List Event)
  | .phase _ (.done log) => some log
  | _ => none

end Call

/-- The logs of the phases that were run to their ends. -/
def phaseLogs (calls : List Call) : List (List Event) :=
  calls.filterMap Call.log?

/-- All that was planned was called, and succeeded. -/
def Whole (plan : List Request) (calls : List Call) : Prop :=
  calls.map Call.request = plan ∧ ∀ x ∈ calls, x.ending = .done ()

/-- The calls go along the plan up to one that did not succeed, and `e` is what is left to say. -/
def Cut {α : Type} (plan : List Request) (calls : List Call) (e : Ending BenchError α) : Prop :=
  ∃ front x, calls = front ++ [x] ∧ calls.map Call.request <+: plan ∧
    (∀ y ∈ front, y.ending = .done ()) ∧
    ((∃ error, x.ending = .failed error ∧ e = .failed error) ∨
      (x.ending = .stalled ∧ e = .stalled))

section Plans

variable {α β : Type} {plan rest : List Request} {calls front back : List Call}
  {e : Ending BenchError α}

theorem phaseLogs_append : phaseLogs (front ++ back) = phaseLogs front ++ phaseLogs back :=
  List.filterMap_append

theorem Whole.append (h : Whole plan front) (h' : Whole rest back) :
    Whole (plan ++ rest) (front ++ back) := by
  refine ⟨?_, fun x hx => ?_⟩
  · rw [List.map_append, h.1, h'.1]
  · exact (List.mem_append.1 hx).elim (h.2 x) (h'.2 x)

/-- Each phase that was run to its end has a log. -/
theorem Whole.length_phaseLogs (h : Whole plan calls) :
    (phaseLogs calls).length = plan.countP (· ≠ .idle) := by
  obtain ⟨rfl, hdone⟩ := h
  induction calls with
  | nil => rfl
  | cons x calls ih =>
    have hrest := ih fun y hy => hdone y (List.mem_cons_of_mem _ hy)
    have hx := hdone x List.mem_cons_self
    cases x with
    | idle e => exact hrest
    | phase b e =>
      cases e with
      | done log =>
        rw [List.map_cons, List.countP_cons_of_pos (by simp [Call.request])]
        exact congrArg Nat.succ hrest
      | failed error => cases hx
      | stalled => cases hx

theorem Cut.after (h : Whole plan front) (h' : Cut rest back e) :
    Cut (plan ++ rest) (front ++ back) e := by
  obtain ⟨mid, x, rfl, hplan, hmid, hx⟩ := h'
  refine ⟨front ++ mid, x, (List.append_assoc ..).symm, ?_, fun y hy => ?_, hx⟩
  · rw [List.map_append, h.1]
    exact (List.prefix_append_right_inj plan).2 hplan
  · exact (List.mem_append.1 hy).elim (h.2 y) (hmid y)

theorem Cut.weaken (h : Cut plan calls e) : Cut (plan ++ rest) calls e := by
  obtain ⟨front, x, hcalls, hplan, hrest⟩ := h
  exact ⟨front, x, hcalls, hplan.trans (List.prefix_append plan rest), hrest⟩

theorem Cut.along (h : Cut plan calls e) : calls.map Call.request <+: plan := by
  obtain ⟨front, x, -, hplan, -⟩ := h
  exact hplan

/-- Of a single call that did not succeed there is no log. -/
theorem Cut.phaseLogs_eq_nil {q : Request} (h : Cut [q] calls e) : phaseLogs calls = [] := by
  obtain ⟨front, x, rfl, hplan, -, hx⟩ := h
  have hlength := hplan.length_le
  rw [List.length_map, List.length_append, List.length_singleton] at hlength
  obtain rfl : front = [] := List.length_eq_zero_iff.1 (by simpa using hlength)
  have hending : x.ending ≠ .done () := by
    intro hdone
    rcases hx with ⟨error, hx, -⟩ | ⟨hx, -⟩
    · rw [hdone] at hx
      cases hx
    · rw [hdone] at hx
      cases hx
  cases x with
  | idle e => rfl
  | phase b e =>
    cases e with
    | done log => exact absurd rfl hending
    | failed error => rfl
    | stalled => rfl

/-- What is cut off has no result. -/
theorem Cut.ne_done {a : α} (h : Cut plan calls e) : e ≠ .done a := by
  obtain ⟨front, x, -, -, -, ⟨error, -, rfl⟩ | ⟨-, rfl⟩⟩ := h
  · exact fun heq => by cases heq
  · exact fun heq => by cases heq

/-- … and goes for work with a result of another kind as well. -/
theorem Cut.failed {error : BenchError} (h : Cut plan calls (.failed error : Ending BenchError α)) :
    Cut plan calls (.failed error : Ending BenchError β) := by
  obtain ⟨front, x, hcalls, hplan, hfront, ⟨error', hx, heq⟩ | ⟨-, heq⟩⟩ := h
  · cases heq
    exact ⟨front, x, hcalls, hplan, hfront, Or.inl ⟨error, hx, rfl⟩⟩
  · cases heq

theorem Cut.stalled (h : Cut plan calls (.stalled : Ending BenchError α)) :
    Cut plan calls (.stalled : Ending BenchError β) := by
  obtain ⟨front, x, hcalls, hplan, hfront, ⟨error', -, heq⟩ | ⟨hx, -⟩⟩ := h
  · cases heq
  · exact ⟨front, x, hcalls, hplan, hfront, Or.inr ⟨hx, rfl⟩⟩

end Plans

/-! ## Work that calls an executor -/

/-- Steps on a state, each of which may fail to return. -/
abbrev Steps (τ : Type) := OptionT (StateM τ)

/-- How work ended. Work that did not return is stalled. -/
def Ending.ofOutcome {ε α : Type} : Option (Except ε α) → Ending ε α
  | some (.ok a) => .done a
  | some (.error e) => .failed e
  | none => .stalled

/-- A call, with the states of the executor before and after it. -/
structure Exchange (τ : Type) where
  before : τ
  call : Call
  after : τ

section Work

variable {τ α β : Type}

/-- A step, with a note of it at the end of a history. -/
def recordedStep (call : Ending BenchError α → Call) (step : Steps τ (Except BenchError α)) :
    Steps (τ × List (Exchange τ)) (Except BenchError α) := fun (s, history) =>
  match step s with
  | (outcome, s') => (outcome, s', history ++ [⟨s, call (.ofOutcome outcome), s'⟩])

/-- The executor, with a history of all calls beside its state. -/
def Executor.recorded (x : Executor (Steps τ)) : Executor (Steps (τ × List (Exchange τ))) where
  ensureIdle := recordedStep .idle x.ensureIdle
  runPhase b := recordedStep (.phase b) (x.runPhase b)

theorem run_bind {ε : Type} (work : ExceptT ε (Steps τ) α) (f : α → ExceptT ε (Steps τ) β)
    (s : τ) : (work >>= f).run s =
      match work.run s with
      | (some (.ok a), s') => (f a).run s'
      | (some (.error e), s') => (some (.error e), s')
      | (none, s') => (none, s') := by
  unfold ExceptT.run
  simp only [Bind.bind, ExceptT.bind, ExceptT.mk, OptionT.bind, OptionT.mk, StateT.bind]
  match work s with
  | (some (.ok a), s') => rfl
  | (some (.error e), s') => rfl
  | (none, s') => rfl

/-- Work that keeps a history does what it does without one, and `Q` holds of the state in which it
began, the exchanges that it made, how it ended and in which state. -/
def Makes (plain : ExceptT BenchError (Steps τ) α)
    (work : ExceptT BenchError (Steps (τ × List (Exchange τ))) α)
    (Q : τ → List (Exchange τ) → Ending BenchError α → τ → Prop) : Prop :=
  ∀ s history, ∃ made outcome s', plain.run s = (outcome, s') ∧
    work.run (s, history) = (outcome, s', history ++ made) ∧ Q s made (.ofOutcome outcome) s'

variable {plain : ExceptT BenchError (Steps τ) α}
  {work : ExceptT BenchError (Steps (τ × List (Exchange τ))) α}
  {f : α → ExceptT BenchError (Steps τ) β}
  {g : α → ExceptT BenchError (Steps (τ × List (Exchange τ))) β}
  {Q : τ → List (Exchange τ) → Ending BenchError α → τ → Prop}
  {R : α → τ → List (Exchange τ) → Ending BenchError β → τ → Prop}
  {P : τ → List (Exchange τ) → Ending BenchError β → τ → Prop}

theorem makes_pure {a : α} (h : ∀ s, Q s [] (.done a) s) : Makes (pure a) (pure a) Q := by
  intro s history
  refine ⟨[], some (.ok a), s, rfl, ?_, h s⟩
  rw [List.append_nil]
  rfl

theorem makes_throw {error : BenchError} (h : ∀ s, Q s [] (.failed error) s) :
    Makes (throw error) (throw error) Q := by
  intro s history
  refine ⟨[], some (.error error), s, rfl, ?_, h s⟩
  rw [List.append_nil]
  rfl

/-- A call makes one exchange, which is what the step does. -/
theorem makes_call {call : Ending BenchError α → Call} {step : Steps τ (Except BenchError α)}
    (h : ∀ s, Q s [⟨s, call (.ofOutcome (step s).1), (step s).2⟩] (.ofOutcome (step s).1)
      (step s).2) :
    Makes (ExceptT.mk step) (ExceptT.mk (recordedStep call step)) Q := fun s _ =>
  ⟨_, (step s).1, (step s).2, rfl, rfl, h s⟩

/-- **What is made one after the other** is made in one go, and an end that is not a result is the
end of all. -/
theorem Makes.bind (h : Makes plain work Q) (hf : ∀ a, Makes (f a) (g a) (R a))
    (hdone : ∀ {s s' s'' front back a e}, Q s front (.done a) s' → R a s' back e s'' →
      P s (front ++ back) e s'')
    (hfailed : ∀ {s s' front error}, Q s front (.failed error) s' → P s front (.failed error) s')
    (hstalled : ∀ {s s' front}, Q s front .stalled s' → P s front .stalled s') :
    Makes (plain >>= f) (work >>= g) P := by
  intro s history
  obtain ⟨front, outcome, s', hplain, hwork, hQ⟩ := h s history
  rw [run_bind, run_bind, hplain, hwork]
  match outcome with
  | some (.ok a) =>
    obtain ⟨back, outcome', s'', hplain', hwork', hR⟩ := hf a s' (history ++ front)
    refine ⟨front ++ back, outcome', s'', hplain', ?_, hdone hQ hR⟩
    rw [← List.append_assoc]
    exact hwork'
  | some (.error error) => exact ⟨front, some (.error error), s', rfl, rfl, hfailed hQ⟩
  | none => exact ⟨front, none, s', rfl, rfl, hstalled hQ⟩

/-! ### Work along a plan -/

/-- Work follows a plan if it makes all the calls, and then `D` holds of them and of the result, or
ends with the first one that does not succeed. -/
def Follows (plain : ExceptT BenchError (Steps τ) α)
    (work : ExceptT BenchError (Steps (τ × List (Exchange τ))) α) (plan : List Request)
    (D : List Call → α → Prop) : Prop :=
  Makes plain work fun _ made e _ =>
    (∃ a, Whole plan (made.map Exchange.call) ∧ D (made.map Exchange.call) a ∧ e = .done a) ∨
      Cut plan (made.map Exchange.call) e

section Follows

variable {q : Request} {plan rest : List Request} {D : List Call → α → Prop}
  {E : α → List Call → β → Prop} {F : List Call → β → Prop}

theorem follows_pure {a : α} (h : D [] a) : Follows (τ := τ) (pure a) (pure a) [] D :=
  makes_pure fun _ => Or.inl ⟨a, ⟨rfl, by simp⟩, h, rfl⟩

theorem follows_single {call : Ending BenchError α → Call}
    {step : Steps τ (Except BenchError α)} (hrequest : ∀ e, (call e).request = q)
    (hending : ∀ e, (call e).ending = e.void) (hD : ∀ a, D [call (.done a)] a) :
    Follows (ExceptT.mk step) (ExceptT.mk (recordedStep call step)) [q] D := by
  refine makes_call fun s => ?_
  have hplan : ∀ e, [call e].map Call.request = [q] := by
    intro e
    rw [List.map_singleton, hrequest]
  have halong : ∀ e, [call e].map Call.request <+: [q] := fun e => by rw [hplan]
  match (step s).1 with
  | some (.ok a) =>
    refine Or.inl ⟨a, ⟨hplan _, fun x hx => ?_⟩, hD a, rfl⟩
    rw [List.mem_singleton.1 hx]
    exact hending _
  | some (.error error) =>
    exact Or.inr ⟨[], _, rfl, halong _, by simp, Or.inl ⟨error, hending _, rfl⟩⟩
  | none => exact Or.inr ⟨[], _, rfl, halong _, by simp, Or.inr ⟨hending _, rfl⟩⟩

theorem Follows.bind (h : Follows plain work plan D) (hf : ∀ a, Follows (f a) (g a) rest (E a))
    (hF : ∀ {front back a b}, D front a → E a back b → F (front ++ back) b) :
    Follows (plain >>= f) (work >>= g) (plan ++ rest) F := by
  refine Makes.bind h hf ?_ ?_ ?_
  · rintro s s' s'' front back a e (⟨a', hfront, hD, heq⟩ | hcut) hback
    · cases heq
      rw [List.map_append]
      rcases hback with ⟨b, hwhole, hE, rfl⟩ | hcut
      · exact Or.inl ⟨b, hfront.append hwhole, hF hD hE, rfl⟩
      · exact Or.inr (.after hfront hcut)
    · exact absurd rfl hcut.ne_done
  · rintro s s' front error (⟨a, -, -, heq⟩ | hcut)
    · cases heq
    · exact Or.inr hcut.failed.weaken
  · rintro s s' front (⟨a, -, -, heq⟩ | hcut)
    · cases heq
    · exact Or.inr hcut.stalled.weaken

end Follows

end Work

end BoardBench
