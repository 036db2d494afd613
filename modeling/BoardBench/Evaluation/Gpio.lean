import BoardBench.Channel
import BoardBench.Evaluation

/-!
# Evaluation of the GPIO test

The board under test switches its pins on one after another, and the tester reports the rising and
the falling edge that it sees on the pin wired to each. The three sequences have to agree in length
and in the order of the pins, and the rising edges have to be evenly spaced.
-/

set_option autoImplicit false

namespace BoardBench.Evaluation.Gpio

def marker : String := "gpio@"

/-- The width of a pin's name, as in `gpio@48000800 pin 1`. -/
def pinWidth : Nat := 19

/-- The pins that the board under test switched on. -/
def toggles : List Event → List Event :=
  selected .sut fun e => e.mentions marker && Text.endsWith e.payload "on"

/-- The rising edges that the tester saw. -/
def rising : List Event → List Event :=
  selected .tester fun e => e.mentions marker && e.mentions "rising"

/-- The falling edges that the tester saw. -/
def falling : List Event → List Event :=
  selected .tester fun e => e.mentions marker && e.mentions "falling"

def pin (e : Event) : String :=
  e.channel pinWidth

/-- A violation for two pins that should be the same. -/
def pinMismatch (pair : PinPair) (left right : String) (position : Nat) : List Diagnostic :=
  if left = right then [] else [.pins pair left right position]

/-- The violations at one position of the three sequences. -/
def pinDiagnostics (toggled up down : Event) (position : Nat) : List Diagnostic :=
  pinMismatch .risingFalling (pin up) (pin down) position
    ++ pinMismatch .risingToggled (pin up) (pin toggled) position
    ++ pinMismatch .fallingToggled (pin down) (pin toggled) position

def orderDiagnostics (toggled ups downs : List Event) : List Diagnostic :=
  ((toggled.zip ups).zip downs).zipIdx.flatMap fun (((t, u), d), i) => pinDiagnostics t u d i

/-- The numbers of events, the pins that were switched on first. -/
def tallies (log : List Event) : List Tally :=
  [⟨"pin toggles on SUT", (toggles log).length⟩,
    ⟨"rising edges on Tester", (rising log).length⟩,
    ⟨"falling edges on Tester", (falling log).length⟩]

/-- The check of the pin order, which makes sense only for sequences of one length. -/
def checkOrder (log : List Event) (countsAgree : Bool) (f : Findings) : Findings :=
  if countsAgree then
    let (ordered, f) := f.check (orderDiagnostics (toggles log) (rising log) (falling log))
    f.note (if ordered then "Port order is OK" else "Port order has ERRORs")
  else f.error (.skipped "GPIO" "port order")

def findings (spacing : Bounds) (log : List Event) : Findings :=
  let f : Findings := {}
  if (toggles log).isEmpty then f.error (.missing "pin toggles on SUT")
  else
    let f := f.note
      ("Found " ++ Text.decimal (rising log).length ++ " rising edges on Tester")
    let f := f.note
      ("Found " ++ Text.decimal (falling log).length ++ " falling edges on Tester")
    let (countsAgree, f) := f.checkCounts "GPIO" (tallies log)
    let (inBounds, f) := f.checkSpacing "Tester" "rising edge" spacing (rising log)
    let f :=
      if inBounds then f
      else f.note ("Rising edge timing not in interval [" ++ Text.signedDecimal spacing.min ++ ", "
        ++ Text.signedDecimal spacing.max ++ "]")
    checkOrder log countsAgree f

end BoardBench.Evaluation.Gpio
