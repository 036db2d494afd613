/-!
# Subsystems

The four parts of a board that have a test of their own. A test is started by a command, and the
device says by its stop message that it is through.

The two orders differ: tests are run in one and reported in the other. The commands and stop
messages of all four are made in one way, from the name; that none of them can be taken for another
is a matter of the names alone.
-/

set_option autoImplicit false

namespace BoardBench

/-- A tested part of the board. -/
inductive Subsystem where
  | gpio
  | uart
  | can
  | lin
deriving Repr, DecidableEq

namespace Subsystem

def command : Subsystem → String
  | .gpio => "gpio"
  | .uart => "uart"
  | .can => "can"
  | .lin => "lin"

def label : Subsystem → String
  | .gpio => "GPIO"
  | .uart => "UART"
  | .can => "CAN"
  | .lin => "LIN"

def start (s : Subsystem) : String :=
  s.command ++ " start"

def stop (s : Subsystem) : String :=
  s.command ++ " stop"

def executionOrder : List Subsystem := [.lin, .uart, .gpio, .can]

def reportOrder : List Subsystem := [.gpio, .uart, .can, .lin]

end Subsystem

end BoardBench
