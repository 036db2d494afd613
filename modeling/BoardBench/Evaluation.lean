import BoardBench.Findings
import BoardBench.Subsystem

/-!
# Evaluations

What is to be said about the log of one subsystem's test: the findings, and the errors that the
devices themselves logged. Both count against the board. The summary gives the verdict with the
notes, the transcript everything else.

An evaluation keeps its log, although the findings were made in it already: the errors that devices
logged are no findings of any check, and the transcript shows the log as a whole. The verdict is
computed from both and stored nowhere, so that it cannot be at odds with them.
-/

set_option autoImplicit false

namespace BoardBench

/-- The findings about a subsystem, with the log that they were made in. -/
structure Evaluation where
  subsystem : Subsystem
  log : List Event
  findings : Findings
deriving Repr, DecidableEq

namespace Evaluation

def diagnostics (e : Evaluation) : List Diagnostic :=
  e.findings.diagnostics

def serialErrors (e : Evaluation) : List Event :=
  e.log.filter Event.isError

/-- Something is wrong: a violation was found, or a device logged an error. -/
def hasErrors (e : Evaluation) : Bool :=
  !e.diagnostics.isEmpty || !e.serialErrors.isEmpty

/-- The notes that close a summary: how many violations and logged errors there are. -/
def closingNotes (e : Evaluation) : List String :=
  (if e.diagnostics.isEmpty then "All tests passed"
    else "Errors Found during evaluation: " ++ Text.decimal e.diagnostics.length) ::
  (if e.serialErrors.isEmpty then []
    else ["Error messages logged during test: " ++ Text.decimal e.serialErrors.length])

/-- The notes of the findings, and the closing ones. -/
def notes (e : Evaluation) : List String :=
  e.findings.notes ++ e.closingNotes

/-- Lines that belong to a heading are set in by two blanks. -/
def indented (lines : List String) : List String :=
  lines.map ("  " ++ ·)

/-- The verdict, and the notes under it. -/
def summary (e : Evaluation) : String :=
  Text.joined "\n"
    ((e.subsystem.label ++ ": " ++ if e.hasErrors then "ERROR" else "OK") :: indented e.notes)

/-- The violations, the errors that devices logged, and the whole log, each under its heading. -/
def transcript (e : Evaluation) : String :=
  Text.joined "\n"
    ((e.subsystem.label ++ " Errors:") :: indented (e.diagnostics.map Diagnostic.message)
      ++ (e.subsystem.label ++ " serial errors during test:")
        :: indented (e.serialErrors.map Event.wire)
      ++ (e.subsystem.label ++ " Log:") :: indented (e.log.map Event.wire))

theorem hasErrors_iff {e : Evaluation} :
    e.hasErrors = true ↔ e.diagnostics ≠ [] ∨ ∃ x ∈ e.log, x.isError = true := by
  simp [hasErrors, serialErrors]

end Evaluation

end BoardBench
