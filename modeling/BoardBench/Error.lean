import BoardBench.Config
import BoardBench.Event.Line
import BoardBench.Identity
import BoardBench.Link.Error

/-!
# Errors of a bench

What ends a run at once. What the evaluations find is no error in this sense.

An error has a chain of causes: its own wording, followed by the wordings of what lies beneath it.
Errors of links and identities are passed on as they are, so they count once; what the system says
about a failed transfer lies beneath them.
-/

set_option autoImplicit false

namespace BoardBench

/-- Why a run ended early. -/
inductive BenchError where
  | link (e : LinkError)
  | line (port : String) (e : LineError)
  | emptyLine (port : String)
  | notIdle (port : String) (attempts : Nat)
  | phaseIncomplete (start : String) (timeoutMs : Nat) (pending : List String) (collected : Nat)
  | queueTooLarge (capacity : Nat)
  | mergeClosed (port : String)
  | identity (e : IdentityError)
  | report (path : String) (reason : StorageFailure)
  | config (e : ConfigError)
deriving Repr, DecidableEq

namespace BenchError

def message : BenchError → String
  | .link e => e.message
  | .line port e => "Error parsing line from " ++ port ++ ": " ++ e.message
  | .emptyLine port => "Read empty line from " ++ port
  | .notIdle port attempts =>
    port ++ " did not report idle true after " ++ Text.decimal attempts ++ " attempts"
  | .phaseIncomplete start timeoutMs pending collected =>
    "Phase \"" ++ start ++ "\" incomplete after " ++ Text.decimal timeoutMs
      ++ "ms: no stop message from " ++ Text.joined ", " pending ++ " ("
      ++ Text.decimal collected ++ " events collected)"
  | .queueTooLarge capacity => "No merge queue can hold " ++ Text.decimal capacity ++ " events"
  | .mergeClosed port => "Merge queue closed while " ++ port ++ " was still reading"
  | .identity e => e.message
  | .report path reason => "Failed to write report " ++ path ++ ": " ++ reason.message
  | .config e => "Configuration error: " ++ e.message

/-- The wordings of an error and of what lies beneath it, from the top. -/
def causes (e : BenchError) : List String :=
  e.message :: match e with
    | .link (.write _ reason) => [reason]
    | .link (.read _ reason) => [reason]
    | .line _ (.missingFields text) => [(LineError.missingFields text).message]
    | .line _ (.invalidTimestamp text reason) =>
      [(LineError.invalidTimestamp text reason).message, reason.message]
    | .report _ reason => [reason.message]
    | _ => []

end BenchError

end BoardBench
