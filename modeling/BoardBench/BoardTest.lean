import BoardBench.Error
import BoardBench.Evaluation.OfLog
import BoardBench.Phase
import BoardBench.Report

/-!
# Board tests

A board test is a fixed course of phases: first both boards are identified, then the subsystems are
tested one after another. Before each phase the devices have to be idle, unless that check is
switched off. An error ends the test at once; what the evaluations find does not.

How phases are run is left to an executor, so that the course can be studied by itself.
-/

set_option autoImplicit false

namespace BoardBench

/-- What a board test needs to be able to do. -/
structure Executor (m : Type → Type) where
  /-- Waits until both devices are idle. -/
  ensureIdle : m (Except BenchError Unit)
  /-- Runs a phase and answers the merged log. -/
  runPhase : Bracket → m (Except BenchError (List Event))

/-- The phase that asks the boards for their ids. -/
def Identity.bracket : Bracket :=
  { start := Identity.startCommand, stop := Identity.stopMessage }

/-- The phase that tests a subsystem. -/
def Subsystem.bracket (s : Subsystem) : Bracket :=
  { start := s.start, stop := s.stop }

/-- The outcome of a board test that ran to its end. Evaluations are in the order of execution. -/
structure BoardTest where
  identity : Identity
  evaluations : List Evaluation
deriving Repr, DecidableEq

namespace BoardTest

/-! ## The course of a test -/

section Course

variable {m : Type → Type} [Monad m]

/-- Waits for idle devices, if the check is switched on. -/
def ready (x : Executor m) (c : Config) : ExceptT BenchError m Unit :=
  if c.idle.enabled then ExceptT.mk x.ensureIdle else pure ()

/-- Runs the phase that asks for the ids and identifies the boards. -/
def identify (x : Executor m) : ExceptT BenchError m Identity := do
  let log ← ExceptT.mk (x.runPhase Identity.bracket)
  match Identity.ofLog log with
  | .ok i => pure i
  | .error e => throw (.identity e)

/-- Runs the phase of a subsystem and evaluates its log. -/
def evaluate (x : Executor m) (c : Config) (s : Subsystem) :
    ExceptT BenchError m Evaluation := do
  let log ← ExceptT.mk (x.runPhase s.bracket)
  pure (Evaluation.ofLog c.timing s log)

def evaluateAll (x : Executor m) (c : Config) :
    List Subsystem → ExceptT BenchError m (List Evaluation)
  | [] => pure []
  | s :: rest => do
    ready x c
    let e ← evaluate x c s
    let es ← evaluateAll x c rest
    pure (e :: es)

def run (x : Executor m) (c : Config) : ExceptT BenchError m BoardTest := do
  ready x c
  let identity ← identify x
  let evaluations ← evaluateAll x c Subsystem.executionOrder
  pure { identity, evaluations }

end Course

/-! ## The outcome -/

def hasErrors (t : BoardTest) : Bool :=
  t.evaluations.any Evaluation.hasErrors

def evaluation? (t : BoardTest) (s : Subsystem) : Option Evaluation :=
  t.evaluations.find? (·.subsystem == s)

/-- The evaluations in the order of the report. -/
def reported (t : BoardTest) : List Evaluation :=
  Subsystem.reportOrder.filterMap t.evaluation?

/-- The summaries, that of the identities first. -/
def summaries (t : BoardTest) : List String :=
  t.identity.summary :: t.reported.map Evaluation.summary

/-- The transcripts, that of the identities first. -/
def transcripts (t : BoardTest) : List String :=
  t.identity.transcript :: t.reported.map Evaluation.transcript

def report (t : BoardTest) (created : Stamp) : Report :=
  { created, sutId := t.identity.sutId, summaries := t.summaries, transcripts := t.transcripts }

end BoardTest

end BoardBench
