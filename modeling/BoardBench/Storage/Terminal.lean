import BoardBench.Link.Error
import BoardBench.Storage.Tree

/-!
# Terminals

A serial port is opened by the path of a terminal. A terminal that is in use cannot be opened once
more.

Terminals are in the tree like files, so that a path to one goes through directories and can fail as
any other does. Whether it is in use is asked last, since only a terminal can be.
-/

set_option autoImplicit false

namespace BoardBench

/-- Why a path could not be opened as a terminal. -/
inductive TerminalFailure where
  | storage (f : StorageFailure)
  | noTerminal
  | busy
deriving Repr, DecidableEq

/-- The wording of a failure. A path with a NUL is only said to be no proper argument. -/
def TerminalFailure.message : TerminalFailure → String
  | .storage .nulInPath => "Invalid argument"
  | .storage f => f.description
  | .noTerminal => "Not a typewriter"
  | .busy => "Device or resource busy"

/-- Opens the terminal at a path, while some are in use, and answers its number. -/
def Tree.openTerminal (t : Tree) (inUse : List Nat) (path : String) :
    Except TerminalFailure Nat :=
  match t.locate path with
  | .error f => .error (.storage f)
  | .ok g =>
    match t.get? g.place with
    | none => .error (.storage .notFound)
    | some .directory => .error (.storage .isDirectory)
    | some (.file _) =>
      .error (if g.asDirectory then .storage .notDirectory else .noTerminal)
    | some (.terminal number) =>
      if g.asDirectory then .error (.storage .notDirectory)
      else if inUse.contains number then .error .busy
      else .ok number

/-- The error of a link that could not be opened. -/
def LinkError.ofTerminal (path : String) (f : TerminalFailure) : LinkError :=
  .cannotOpen path f.message

end BoardBench
