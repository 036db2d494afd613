import BoardBench.Config
import BoardBench.Toml.Document

/-!
# Configurations in TOML

A configuration document has a table per section. Every key may be missing and has its default
then, and unknown keys mean nothing; but a key that is there must have a value of the right type and
range. Bounds are the exception: they need both ends.

A section may also be an array of its fields in their usual order, cut short at will. A date in the
place of a section is a table with no key that a section knows.
-/

set_option autoImplicit false

namespace BoardBench

namespace Config

/-- The fields of a section: what stands at a position, or under a key. -/
abbrev Fields := Nat → String → Option Toml.Value

/-- The fields that a value offers as a section. -/
def fields? : Toml.Value → Option Fields
  | .table entries => some fun _ key => Toml.lookup key entries
  | .array items => some fun position _ => items[position]?
  | .date _ => some fun _ _ => none
  | _ => none

/-- A field that may be missing; one that is there must decode. -/
def optional {α : Type} (fields : Fields) (position : Nat) (key : String)
    (decode : Toml.Value → Option α) (default : α) : Option α :=
  match fields position key with
  | none => some default
  | some v => decode v

def required {α : Type} (fields : Fields) (position : Nat) (key : String)
    (decode : Toml.Value → Option α) : Option α := do
  decode (← fields position key)

def decodeWord (bits : Nat) : Toml.Value → Option Nat
  | .integer n => if 0 ≤ n ∧ n.toNat < 1 <<< bits then some n.toNat else none
  | _ => none

def decodeInteger : Toml.Value → Option Int
  | .integer n => some n
  | _ => none

def decodeFlag : Toml.Value → Option Bool
  | .boolean b => some b
  | _ => none

def decodeText : Toml.Value → Option String
  | .text s => some s
  | _ => none

/-- Bounds, both ends of which are needed. -/
def decodeBounds (v : Toml.Value) : Option Bounds := do
  let fields ← fields? v
  let min ← required fields 0 "min_ms" decodeInteger
  let max ← required fields 1 "max_ms" decodeInteger
  some ⟨min, max⟩

/-- The section `[serial]`. -/
def decodeSerial (v : Toml.Value) : Option SerialSettings := do
  let fields ← fields? v
  let usual : SerialSettings := {}
  let baudRate ← optional fields 0 "baud_rate" (decodeWord 32) usual.baudRate
  let readTimeoutMs ← optional fields 1 "read_timeout_ms" (decodeWord 64) usual.readTimeoutMs
  some { baudRate, readTimeoutMs }

/-- The section `[phase]`. -/
def decodePhase (v : Toml.Value) : Option PhaseSettings := do
  let fields ← fields? v
  let usual : PhaseSettings := {}
  let timeoutMs ← optional fields 0 "timeout_ms" (decodeWord 64) usual.timeoutMs
  let channelCapacity ←
    optional fields 1 "channel_capacity" (decodeWord 64) usual.channelCapacity
  some { timeoutMs, channelCapacity }

/-- The section `[idle]`. -/
def decodeIdle (v : Toml.Value) : Option IdleSettings := do
  let fields ← fields? v
  let usual : IdleSettings := {}
  let enabled ← optional fields 0 "enabled" decodeFlag usual.enabled
  let maxAttempts ← optional fields 1 "max_attempts" (decodeWord 32) usual.maxAttempts
  let retryDelayMs ← optional fields 2 "retry_delay_ms" (decodeWord 64) usual.retryDelayMs
  some { enabled, maxAttempts, retryDelayMs }

/-- The section `[timing]`. -/
def decodeTiming (v : Toml.Value) : Option TimingSettings := do
  let fields ← fields? v
  let usual : TimingSettings := {}
  let gpio ← optional fields 0 "gpio" decodeBounds usual.gpio
  let uart ← optional fields 1 "uart" (some <$> decodeBounds ·) usual.uart
  let can ← optional fields 2 "can" decodeBounds usual.can
  let lin ← optional fields 3 "lin" decodeBounds usual.lin
  some { gpio, uart, can, lin }

/-- The section `[report]`. -/
def decodeReport (v : Toml.Value) : Option ReportSettings := do
  let fields ← fields? v
  let usual : ReportSettings := {}
  let outputDir ← optional fields 0 "output_dir" decodeText usual.outputDir
  some { outputDir }

/-- The configuration that a document describes, not yet validated. -/
def ofEntries? (entries : List (String × Toml.Value)) : Option Config := do
  let sections : Fields := fun _ key => Toml.lookup key entries
  let serial ← optional sections 0 "serial" decodeSerial {}
  let phase ← optional sections 1 "phase" decodePhase {}
  let idle ← optional sections 2 "idle" decodeIdle {}
  let timing ← optional sections 3 "timing" decodeTiming {}
  let report ← optional sections 4 "report" decodeReport {}
  some { serial, phase, idle, timing, report }

def ofToml (document : String) : Except ConfigError Config :=
  match (Toml.parse document).bind ofEntries? with
  | none => .error .invalid
  | some c => c.validate

end Config

end BoardBench
