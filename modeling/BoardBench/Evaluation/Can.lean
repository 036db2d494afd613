import BoardBench.Channel
import BoardBench.Evaluation

/-!
# Evaluation of the CAN test

The board under test sends frames at regular intervals on every controller and reports each, and the
tester reports the frames that it receives. On each channel both sequences have to be the same,
payload by payload, and the received frames have to keep their period, which takes at least two of
them.
-/

set_option autoImplicit false

namespace BoardBench.Evaluation.Can

def marker : String := "can@"

/-- The width of a controller's name, as in `can@40006400`. -/
def width : Nat := 12

/-- The frames that the board under test sent. -/
def sent : List Event → List Event :=
  selected .sut (·.mentions marker)

/-- The frames that the tester received. -/
def received : List Event → List Event :=
  selected .tester (·.mentions marker)

/-- The violations among sequences of one length. -/
def payloadDiagnostics (channel : String) (sents receiveds : List Event) : List Diagnostic :=
  (sents.zip receiveds).zipIdx.filterMap fun ((s, r), i) =>
    if s.payload = r.payload then none else some (.payload channel i s r)

def periodDiagnostics (spacing : Bounds) (channel : String) (receiveds : List Event) :
    List Diagnostic :=
  if receiveds.length < 2 then [.fewFrames channel]
  else spacingDiagnostics channel "frame" spacing receiveds

def channelDiagnostics (spacing : Bounds) (channel : String) (sents receiveds : List Event) :
    List Diagnostic :=
  let counts := countDiagnostics channel
    [⟨"sent frames", sents.length⟩, ⟨"received frames", receiveds.length⟩]
  if counts.isEmpty then
    payloadDiagnostics channel sents receiveds ++ periodDiagnostics spacing channel receiveds
  else counts ++ [.skipped channel "equality"]

def findings (spacing : Bounds) (log : List Event) : Findings :=
  let f : Findings := {}
  let violations := (channels width [received log, sent log]).flatMap fun c =>
    channelDiagnostics spacing c (onChannel width c (sent log)) (onChannel width c (received log))
  (f.check violations).2

end BoardBench.Evaluation.Can
