import BoardBench.BoardTest
import BoardBench.CommandLine.Help
import BoardBench.Config.Load
import BoardBench.Report.Saving

/-!
# The program

Loads the configuration, opens both ports, runs the board test, saves the report and prints the
results. An error on the way ends the program at once; it is shown with the step that failed and the
chain of its causes. A board that fails its test is no error, but the exit code tells.

What the program does to the world goes through its host.
-/

set_option autoImplicit false

namespace BoardBench

/-- What the program needs of the world. -/
structure Host (m : Type → Type) where
  /-- The file system. -/
  storage : Storage m
  /-- Opens a port for one side of the bench. -/
  openPort : SerialSettings → Side → String → m (Except LinkError Unit)
  /-- Drops what the devices on the open ports sent so far. -/
  clearInput : m (Except BenchError Unit)
  /-- Runs phases on the open ports. -/
  executor : Config → Executor m
  /-- The local time. -/
  localTime : m Stamp
  /-- Prints to the standard output. -/
  print : String → m Unit
  /-- Prints to the standard error output. -/
  complain : String → m Unit

/-- How the program ends. -/
inductive ExitCode where
  | success
  | failure
  | usage
deriving Repr, DecidableEq

def ExitCode.number : ExitCode → Nat
  | .success => 0
  | .failure => 1
  | .usage => 2

/-- An error that ends the program: the step that failed, and why, from the top. -/
structure Fatal where
  context : String
  causes : List String
deriving Repr, DecidableEq

namespace Fatal

/-- A text whose lines after the first are set in. -/
def setIn (margin text : String) : String :=
  String.ofList (text.toList.flatMap fun c => if c = '\n' then c :: margin.toList else [c])

/-- A cause as it is listed: numbered if there are several. -/
def listed (several : Bool) (cause : String) (position : Nat) : String :=
  if several then
    let number := Text.decimal position
    "\n" ++ String.ofList (List.replicate (5 - number.length) ' ') ++ number ++ ": "
      ++ setIn "       " cause
  else "\n    " ++ setIn "    " cause

/-- The text that the program leaves on the standard error output. -/
def render (f : Fatal) : String :=
  "Error: " ++ f.context ++
    (if f.causes.isEmpty then ""
      else "\n\nCaused by:" ++ Text.joined "" (f.causes.zipIdx.map fun (cause, i) =>
        listed (1 < f.causes.length) cause i)) ++ "\n"

end Fatal

namespace Program

def hint : String :=
  "For more information, try '--help'.\n"

section Steps

variable {m : Type → Type} [Monad m]

/-- A step, and what to say if it fails. -/
def step {α : Type} (context : String) (work : m (Except BenchError α)) : ExceptT Fatal m α :=
  ExceptT.mk do
    match ← work with
    | .ok a => pure (.ok a)
    | .error e => pure (.error { context, causes := e.causes })

/-- The configuration, as the options change it. -/
def configure (h : Host m) (o : Options) : ExceptT Fatal m Config :=
  match o.config with
  | none => pure (o.override {})
  | some path => do
    let c ← step ("Failed to load config " ++ path) do
      match ← Config.load h.storage path with
      | .ok c => pure (.ok c)
      | .error e => pure (.error (.config e))
    pure (o.override c)

def attach (h : Host m) (c : Config) (side : Side) (port : String) : ExceptT Fatal m Unit :=
  step ("Failed to open " ++ port) do
    match ← h.openPort c.serial side port with
    | .ok () => pure (.ok ())
    | .error e => pure (.error (.link e))

/-- Everything up to the saved report: the test, the report, and its path. -/
def work (h : Host m) (o : Options) : ExceptT Fatal m (BoardTest × Report × String) := do
  let c ← configure h o
  attach h c .first o.firstPort
  attach h c .second o.secondPort
  step "Failed to clear serial input" h.clearInput
  let test ← step "Board test aborted" (BoardTest.run (h.executor c) c).run
  let created ← ExceptT.lift h.localTime
  let report := test.report created
  let path ← step "Failed to save results" (report.save h.storage c.report.outputDir)
  pure (test, report, path)

def conclude (h : Host m) (test : BoardTest) (report : Report) (path : String) : m ExitCode := do
  h.print (report.results ++ "\n")
  h.print ("Results saved to: " ++ path ++ "\n")
  h.print "\n\n\n"
  if test.hasErrors then
    h.print "Test exited with errors!\n"
    pure .failure
  else
    h.print "Test successful\n"
    pure .success

/-- Does what the options ask for. -/
def carryOut (h : Host m) (o : Options) : m ExitCode := do
  match ← (work h o).run with
  | .error f =>
    h.complain f.render
    pure .failure
  | .ok (test, report, path) => conclude h test report path

/-- The whole program, with the configuration file that the environment names. -/
def run (h : Host m) (environment : Option String) (arguments : List String) : m ExitCode := do
  match CommandLine.parse environment arguments with
  | .error e =>
    h.complain ("error: " ++ CommandLine.message e ++ "\n\n" ++ CommandLine.usage ++ "\n" ++ hint)
    pure .usage
  | .ok .help =>
    h.print (CommandLine.help environment)
    pure .success
  | .ok (.run o) => carryOut h o

end Steps

end Program

end BoardBench
