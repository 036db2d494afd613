import BoardBench.BoardTest
import BoardBench.Session

/-!
# Board tests in a session

A session can run a board test. The test as a whole is an activity: without a result if its caller
gives it up, and in any case with a session that it leaves behind.

The executor is the only thing that a board test knows of a session. Errors are results of an
activity and not its end, because the test decides what to do about them; what has no result is the
activity that was given up, and nothing can be done about that.
-/

set_option autoImplicit false

namespace BoardBench

/-- An activity on a session. -/
abbrev Activity (σ : Type) := OptionT (StateM (Session σ))

namespace Session

variable {σ : Type}

/-- A step on the session as an activity: errors are results, and a step that was given up has
none. -/
def activity {α : Type} (step : Session σ → Ending BenchError α × Session σ) :
    Activity σ (Except BenchError α) := fun s =>
  match step s with
  | (.done a, s) => (some (.ok a), s)
  | (.failed e, s) => (some (.error e), s)
  | (.stalled, s) => (none, s)

variable [Link σ]

/-- Runs phases on the two links, with the gate and the time limit of the settings. -/
def executor (c : Config) (limit : Limit) : Executor (Activity σ) where
  ensureIdle := activity (ensureIdle (IdleGate.ofSettings c.idle) limit)
  runPhase b := activity (runPhase c.phase limit b)

/-- An activity carried out on a session. -/
def carryOut {α : Type} (work : ExceptT BenchError (Activity σ) α) (s : Session σ) :
    Ending BenchError α × Session σ :=
  match work.run s with
  | (some (.ok a), s) => (.done a, s)
  | (some (.error e), s) => (.failed e, s)
  | (none, s) => (.stalled, s)

def runTests (c : Config) (limit : Limit) (s : Session σ) :
    Ending BenchError BoardTest × Session σ :=
  s.carryOut (BoardTest.run (executor c limit) c)

end Session

end BoardBench
