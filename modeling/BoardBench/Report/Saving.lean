import BoardBench.Error
import BoardBench.Report
import BoardBench.Storage

/-!
# Saving reports

A report is saved under its own name in a directory, which is made if it is missing. An error names
the directory if that could not be made, and else the file.

The directory is made before anything is written and stays if the file cannot be written. A report
that is lost leaves that much behind.
-/

set_option autoImplicit false

namespace BoardBench.Report

def pathIn (r : Report) (directory : String) : String :=
  Path.join directory r.fileName

def save {m : Type → Type} [Monad m] (s : Storage m) (directory : String) (r : Report) :
    m (Except BenchError String) := do
  match ← s.makeDirectories directory with
  | .error reason => pure (.error (.report directory reason))
  | .ok () =>
    match ← s.write (r.pathIn directory) r.contents with
    | .error reason => pure (.error (.report (r.pathIn directory) reason))
    | .ok () => pure (.ok (r.pathIn directory))

end BoardBench.Report
