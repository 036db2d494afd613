import BoardBench.Link.Board
import BoardBench.Program
import BoardBench.Session.Executor
import BoardBench.Storage.Terminal

/-!
# Workbenches

A workbench is a world in memory for the program: a storage tree, boards on the terminals of the
tree, a clock, the local time, and what was printed. A port is opened by the path of a terminal,
and the board there becomes one side of a session.

It is the machine that the program is run on when something is proved about it: it has everything
that a `Host` asks for, and all of it is data. A session is put together from the two boards for
each step and taken apart again after it, since a board is on its terminal whether or not it is in
use.
-/

set_option autoImplicit false

namespace BoardBench

/-- A world in memory. Boards are known by the numbers of their terminals, and `first` and `second`
are the terminals that are open. -/
structure Workbench where
  tree : Tree
  boards : List Board
  localTime : Stamp
  first : Option Nat := none
  second : Option Nat := none
  clock : Clock := {}
  printed : String := ""
  complaints : String := ""

namespace Workbench

/-- An activity on a workbench. -/
abbrev Work := OptionT (StateM Workbench)

def inUse (w : Workbench) : List Nat :=
  w.first.toList ++ w.second.toList

/-- The workbench with a terminal in use for a side. -/
def occupy (w : Workbench) (number : Nat) : Side → Workbench
  | .first => { w with first := some number }
  | .second => { w with second := some number }

/-- Opens the port of the board at a path, which is then known by that path. -/
def openPort (settings : SerialSettings) (side : Side) (path : String) (w : Workbench) :
    Except LinkError Unit × Workbench :=
  match w.tree.openTerminal w.inUse path with
  | .error f => (.error (.ofTerminal path f), w)
  | .ok number =>
    match w.boards[number]? with
    | none => (.error (.ofTerminal path .noTerminal), w)
    | some b =>
      let port : SerialPort := { name := path, readTimeoutMs := settings.readTimeoutMs }
      (.ok (), { w with boards := w.boards.set number { b with port := port } }.occupy number side)

def session? (w : Workbench) : Option (Session Board) := do
  let first ← w.boards[← w.first]?
  let second ← w.boards[← w.second]?
  some { first, second, clock := w.clock }

def restore (w : Workbench) (s : Session Board) : Workbench :=
  match w.first, w.second with
  | some i, some j =>
    { w with boards := (w.boards.set i s.first).set j s.second, clock := s.clock }
  | _, _ => w

/-- Carries out a step of the session, if both ports are open. -/
def inSession {α : Type} (step : Session Board → Ending BenchError α × Session Board) :
    Work (Except BenchError α) := fun w =>
  match w.session? with
  | none => (none, w)
  | some s =>
    match step s with
    | (.done a, s) => (some (.ok a), w.restore s)
    | (.failed e, s) => (some (.error e), w.restore s)
    | (.stalled, s) => (none, w.restore s)

def clearInput : Work (Except BenchError Unit) :=
  inSession fun s =>
    match s.clearInput with
    | (.ok (), s) => (.done (), s)
    | (.error e, s) => (.failed e, s)

/-- Runs phases on the boards, for as long as they take. -/
def executor (c : Config) : Executor Work where
  ensureIdle := inSession (Session.ensureIdle (IdleGate.ofSettings c.idle) none)
  runPhase b := inSession (Session.runPhase c.phase none b)

def onTree {α : Type} (use : StateM Tree α) : Work α := fun w =>
  let (a, tree) := use w.tree
  (some a, { w with tree := tree })

def host : Host Work where
  storage := Tree.storage.lift onTree
  openPort settings side path := fun w =>
    let (outcome, w) := openPort settings side path w
    (some outcome, w)
  clearInput := clearInput
  executor := executor
  localTime := fun w => (some w.localTime, w)
  print text := fun w => (some (), { w with printed := w.printed ++ text })
  complain text := fun w => (some (), { w with complaints := w.complaints ++ text })

def run (environment : Option String) (arguments : List String) (w : Workbench) :
    Option ExitCode × Workbench :=
  (Program.run host environment arguments).run w

end Workbench

end BoardBench
