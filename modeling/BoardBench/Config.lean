import BoardBench.Bounds
import BoardBench.Storage.Failure
import BoardBench.Subsystem
import BoardBench.Text.Decimal

/-!
# Configuration

The settings of a bench, with the value that each has when nothing is said about it, and the checks
that a configuration must pass before a bench is run with it. Of several violations the first in a
fixed order is reported.

The defaults are those of the fields, so that a section that is left out and an empty one come to
the same. A configuration that is accepted is accepted as it is: the checks change nothing in it.
-/

set_option autoImplicit false

namespace BoardBench

/-- How the ports are opened and read. -/
structure SerialSettings where
  baudRate : Nat := 115200
  readTimeoutMs : Nat := 10000
deriving Repr, DecidableEq

/-- How long a phase may take, and how many events may wait to be merged. -/
structure PhaseSettings where
  timeoutMs : Nat := 30000
  channelCapacity : Nat := 256
deriving Repr, DecidableEq

/-- Whether and how the devices are asked if they are idle. -/
structure IdleSettings where
  enabled : Bool := true
  maxAttempts : Nat := 10
  retryDelayMs : Nat := 1000
deriving Repr, DecidableEq

/-- The time that may pass between events, by subsystem. Without bounds for the UART its timing is
not checked. -/
structure TimingSettings where
  gpio : Bounds := ⟨17, 23⟩
  uart : Option Bounds := none
  can : Bounds := ⟨40, 60⟩
  lin : Bounds := ⟨90, 110⟩
deriving Repr, DecidableEq

/-- Where reports go. -/
structure ReportSettings where
  outputDir : String := "."
deriving Repr, DecidableEq

/-- All settings of a bench. -/
structure Config where
  serial : SerialSettings := {}
  phase : PhaseSettings := {}
  idle : IdleSettings := {}
  timing : TimingSettings := {}
  report : ReportSettings := {}
deriving Repr, DecidableEq

/-- The bounds of a subsystem, if its timing is checked. -/
def TimingSettings.bounds? (t : TimingSettings) : Subsystem → Option Bounds
  | .gpio => some t.gpio
  | .uart => t.uart
  | .can => some t.can
  | .lin => some t.lin

/-- The settings with other bounds for one subsystem. -/
def TimingSettings.withBounds (b : Bounds) (t : TimingSettings) : Subsystem → TimingSettings
  | .gpio => { t with gpio := b }
  | .uart => { t with uart := some b }
  | .can => { t with can := b }
  | .lin => { t with lin := b }

@[simp] theorem TimingSettings.bounds?_withBounds (b : Bounds) (t : TimingSettings)
    (s : Subsystem) : (t.withBounds b s).bounds? s = some b := by
  cases s <;> rfl

/-- Why there is no configuration. -/
inductive ConfigError where
  | unreadable (path : String) (reason : StorageFailure)
  | notText (path : String)
  | invalid
  | noAttempts
  | noCapacity
  | reversedBounds (subsystem : Subsystem) (bounds : Bounds)
deriving Repr, DecidableEq

def ConfigError.message : ConfigError → String
  | .unreadable path reason => "Failed to read " ++ path ++ ": " ++ reason.message
  | .notText path => "Failed to read " ++ path ++ ": stream did not contain valid UTF-8"
  | .invalid => "Invalid configuration"
  | .noAttempts => "idle.max_attempts must be at least 1"
  | .noCapacity => "phase.channel_capacity must be at least 1"
  | .reversedBounds s b =>
    "timing." ++ s.command ++ ": min_ms (" ++ Text.signedDecimal b.min ++ ") exceeds max_ms ("
      ++ Text.signedDecimal b.max ++ ")"

namespace Config

def boundsOrder : List Subsystem := [.gpio, .uart, .can, .lin]

/-- The first subsystem of a list whose bounds contain nothing. -/
def reversedBounds? (t : TimingSettings) : List Subsystem → Option ConfigError
  | [] => none
  | s :: rest =>
    match t.bounds? s with
    | some b => if b.isProper then reversedBounds? t rest else some (.reversedBounds s b)
    | none => reversedBounds? t rest

/-- The first violation, if there is one. -/
def violation? (c : Config) : Option ConfigError :=
  if c.idle.maxAttempts = 0 then some .noAttempts
  else if c.phase.channelCapacity = 0 then some .noCapacity
  else reversedBounds? c.timing boundsOrder

/-- The configuration, if it violates nothing. -/
def validate (c : Config) : Except ConfigError Config :=
  match c.violation? with
  | some e => .error e
  | none => .ok c

end Config

end BoardBench
