import BoardBench.Channel
import BoardBench.Evaluation

/-!
# Evaluation of the LIN test

The board under test commands the LIN buses and reports the frames that it sends, and the tester
reports the frames that it receives. Only the last byte of a frame is shown in the same way on both
sides, so on each channel both sequences have to agree in length and in the last characters of the
payloads, and the received frames have to keep their period.
-/

set_option autoImplicit false

namespace BoardBench.Evaluation.Lin

def marker : String := "serial@"

/-- The width of a bus name, as in `serial@40013800`. -/
def width : Nat := 15

/-- The frames that the board under test sent. -/
def sent : List Event → List Event :=
  selected .sut fun e => e.mentions marker && e.mentions "sending"

/-- The frames that the tester received. -/
def received : List Event → List Event :=
  selected .tester fun e => e.mentions marker && e.mentions "received"

/-- The violations among sequences of one length. -/
def frameDiagnostics (channel : String) (sents receiveds : List Event) : List Diagnostic :=
  (sents.zip receiveds).zipIdx.filterMap fun ((s, r), i) =>
    if s.lastChar = r.lastChar then none else some (.frame channel i s r)

def channelDiagnostics (spacing : Bounds) (channel : String) (sents receiveds : List Event) :
    List Diagnostic :=
  let counts := countDiagnostics channel
    [⟨"sent messages", sents.length⟩, ⟨"received messages", receiveds.length⟩]
  if counts.isEmpty then
    frameDiagnostics channel sents receiveds
      ++ spacingDiagnostics channel "frame" spacing receiveds
  else counts ++ [.skipped channel "equality"]

/-- One violation for each side that reported nothing. -/
def missingDiagnostics (sents receiveds : List Event) : List Diagnostic :=
  (if sents.isEmpty then [.missing "messages sent by SUT"] else [])
    ++ if receiveds.isEmpty then [.missing "messages received by tester"] else []

def findings (spacing : Bounds) (log : List Event) : Findings :=
  let f : Findings := {}
  let (present, f) := f.check (missingDiagnostics (sent log) (received log))
  if present then
    let violations := (channels width [sent log, received log]).flatMap fun c =>
      channelDiagnostics spacing c (onChannel width c (sent log))
        (onChannel width c (received log))
    (f.check violations).2
  else f

end BoardBench.Evaluation.Lin
