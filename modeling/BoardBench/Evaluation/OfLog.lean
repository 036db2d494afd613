import BoardBench.Config
import BoardBench.Evaluation.Can
import BoardBench.Evaluation.Gpio
import BoardBench.Evaluation.Lin
import BoardBench.Evaluation.Uart

/-!
# Evaluating a log

The log of a subsystem's test is evaluated under the bounds that are configured for that subsystem.

This is the one place where a subsystem is paired with its evaluation and with its bounds. What is
stated of all subsystems is stated of `ofLog`.
-/

set_option autoImplicit false

namespace BoardBench.Evaluation

/-- What is found in the log of a subsystem's test. -/
def findingsOf (timing : TimingSettings) : Subsystem → List Event → Findings
  | .gpio => Gpio.findings timing.gpio
  | .uart => Uart.findings timing.uart
  | .can => Can.findings timing.can
  | .lin => Lin.findings timing.lin

def ofLog (timing : TimingSettings) (subsystem : Subsystem) (log : List Event) : Evaluation :=
  { subsystem, log, findings := findingsOf timing subsystem log }

end BoardBench.Evaluation
