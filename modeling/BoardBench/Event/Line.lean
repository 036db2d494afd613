import BoardBench.Event
import BoardBench.Text.Blank

/-!
# Lines of a device console

A line is a boot banner, an event in wire form, or malformed. The banner test comes first. An event
line has four parts set off by blanks: time stamp, level, device, and the payload, which is the
trimmed rest and may contain blanks itself. Brackets around the time stamp, angle brackets around
the level and colons behind the device are decoration and come off, however many there are.
-/

set_option autoImplicit false

namespace BoardBench

/-- What a well-formed line says. -/
inductive Line where
  | banner (text : String)
  | event (e : Event)
deriving Repr, DecidableEq

/-- Why a line is malformed. Both kinds keep the line. -/
inductive LineError where
  | missingFields (line : String)
  | invalidTimestamp (line : String) (reason : Text.NumberError)
deriving Repr, DecidableEq

def LineError.message : LineError → String
  | .missingFields line =>
    "Expected \"[time] <level> device: payload\", got \"" ++ line ++ "\""
  | .invalidTimestamp line reason =>
    "Invalid timestamp in \"" ++ line ++ "\": " ++ reason.message

namespace Line

/-- The mark that a boot banner starts and ends with. -/
def bannerMark : List Char := ['*', '*', '*']

/-- The line starts and ends with the banner mark; the two may overlap. -/
def isBanner (cs : List Char) : Bool :=
  bannerMark.isPrefixOf cs && bannerMark.isSuffixOf cs

/-- The four parts of an event line, undecorated but not yet interpreted. -/
structure Parts where
  time : List Char
  level : List Char
  device : List Char
  payload : List Char
deriving Repr, DecidableEq

/-- Splits an event line into its parts; `none` if fewer than four are there. -/
def parts? (cs : List Char) : Option Parts := do
  let (time, rest) ← Text.nextField cs
  let (level, rest) ← Text.nextField rest
  let (device, rest) ← Text.nextField rest
  let payload := Text.trim rest
  if payload.isEmpty then none
  else some {
    time := Text.stripBoth (fun c => c == '[' || c == ']') time
    level := Text.stripBoth (fun c => c == '<' || c == '>') level
    device := Text.dropTrailing (· == ':') device
    payload := payload }

def parse (line : String) : Except LineError Line :=
  let cs := line.toList
  if isBanner cs then .ok (.banner line)
  else
    match parts? cs with
    | none => .error (.missingFields line)
    | some p =>
      match Text.readCount p.time with
      | .error reason => .error (.invalidTimestamp line reason)
      | .ok time => .ok (.event {
          timeMs := time
          level := Level.ofToken (String.ofList p.level)
          device := String.ofList p.device
          payload := String.ofList p.payload })

end Line

end BoardBench
