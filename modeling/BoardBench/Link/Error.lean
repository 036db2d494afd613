import BoardBench.Text.Decimal
import BoardBench.Text.Quoted

/-!
# Link errors

What can go wrong between the bench and one device. Every error names the port.
-/

set_option autoImplicit false

namespace BoardBench

/-- A failure of a link. -/
inductive LinkError where
  | timeout (port : String) (timeoutMs : Nat)
  | closed (port : String)
  | nonAscii (port : String) (line : String)
  | cannotOpen (port : String) (reason : String)
  | write (port : String) (reason : String)
  | read (port : String) (reason : String)
deriving Repr, DecidableEq

namespace LinkError

def port : LinkError → String
  | .timeout port _ => port
  | .closed port => port
  | .nonAscii port _ => port
  | .cannotOpen port _ => port
  | .write port _ => port
  | .read port _ => port

/-- The wording of a link error. A line that could not be accepted is quoted. -/
def message : LinkError → String
  | .timeout port timeoutMs =>
    "No response from " ++ port ++ " within " ++ Text.decimal timeoutMs ++ "ms"
  | .closed port => "Connection to " ++ port ++ " closed"
  | .nonAscii port line =>
    "Received non-ascii line from " ++ port ++ ": " ++ Text.quoted line
  | .cannotOpen port reason => "Failed to open " ++ port ++ ": " ++ reason
  | .write port reason => "Write to " ++ port ++ " failed: " ++ reason
  | .read port reason => "Read from " ++ port ++ " failed: " ++ reason

/-- The error took a line off the link, so that a reader may go on with the next one. -/
def isRejectedLine : LinkError → Bool
  | .nonAscii .. => true
  | _ => false

end LinkError

end BoardBench
