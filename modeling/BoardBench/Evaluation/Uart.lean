import BoardBench.Channel
import BoardBench.Evaluation

/-!
# Evaluation of the UART test

The tester sends one character after another on each of its UARTs. The board under test reports what
it receives and echoes it, and the tester reports the echo. On each channel the three sequences have
to agree in length and character by character; a character is the last one of its event's payload.
How far apart the characters were sent is checked only if there are bounds for it.
-/

set_option autoImplicit false

namespace BoardBench.Evaluation.Uart

def marker : String := "serial@"

/-- The width of a UART's name, as in `serial@40013800`. -/
def width : Nat := 15

/-- The characters that the tester sent. -/
def sent : List Event → List Event :=
  selected .tester fun e => e.mentions marker && e.mentions "send"

/-- The characters that the board under test received. -/
def received : List Event → List Event :=
  selected .sut fun e => e.mentions marker && e.mentions "received"

/-- The echoes that the tester received. -/
def echoed : List Event → List Event :=
  selected .tester fun e => e.mentions marker && e.mentions "received"

/-- A violation for a character that did not arrive as it was sent. -/
def mismatch (channel : String) (position : Nat) (s : Event) (receiver : String) (r : Event) :
    List Diagnostic :=
  if s.lastChar = r.lastChar then [] else [.character channel position s receiver r]

/-- The violations among sequences of one length. -/
def characterDiagnostics (channel : String) (sents receiveds echoes : List Event) :
    List Diagnostic :=
  ((sents.zip receiveds).zip echoes).zipIdx.flatMap fun (((s, r), e), i) =>
    mismatch channel i s "SUT" r ++ mismatch channel i s "tester" e

def channelDiagnostics (spacing : Option Bounds) (channel : String)
    (sents receiveds echoes : List Event) : List Diagnostic :=
  let counts := countDiagnostics channel
    [⟨"sent messages", sents.length⟩, ⟨"received messages (on SUT)", receiveds.length⟩,
      ⟨"received messages (on tester)", echoes.length⟩]
  if counts.isEmpty then
    characterDiagnostics channel sents receiveds echoes
      ++ match spacing with
        | some bounds => spacingDiagnostics channel "send" bounds sents
        | none => []
  else counts ++ [.skipped channel "equality"]

def findings (spacing : Option Bounds) (log : List Event) : Findings :=
  let f : Findings := {}
  if (sent log).isEmpty then f.error (.missing "messages sent by tester")
  else
    let violations := (channels width [sent log, echoed log, received log]).flatMap fun c =>
      channelDiagnostics spacing c (onChannel width c (sent log))
        (onChannel width c (received log)) (onChannel width c (echoed log))
    (f.check violations).2

end BoardBench.Evaluation.Uart
