import BoardBench.Link.SerialPort
import BoardBench.Program
import BoardBench.Session
import Std.Time.Zoned

/-!
# The program on a machine

The host of the program is the machine: its files, its clock, its console, and its serial ports. A
port is the file of a terminal in raw mode that answers a read after a short while with what has
arrived, so that both ports can be looked at in turn.

All that happens here is the exchange of bytes: what arrives goes into the ports of a session, the
session goes on as far as it can at the present instant, and what it sent goes out. The gate and the
phase are those of virtual time, given the present instant as their limit: what they cannot do by
then is stalled, and tried again when more has arrived.
-/

set_option autoImplicit false

namespace BoardBench

/-! ## Files -/

def StorageFailure.ofError : IO.Error → StorageFailure
  | .noFileOrDirectory .. => .notFound
  | .alreadyExists .. => .alreadyExists
  | e => .other (toString e)

/-- An operation on files, with its failure as a result. -/
def attempted {α : Type} (work : IO α) : IO (Except StorageFailure α) := do
  match ← work.toBaseIO with
  | .ok a => pure (.ok a)
  | .error e => pure (.error (.ofError e))

def machineStorage : Storage IO where
  read path := attempted do
    let bytes ← IO.FS.readBinFile path
    pure bytes.toList
  makeDirectories path := attempted (if path.isEmpty then pure () else IO.FS.createDirAll path)
  write path text := attempted (IO.FS.writeFile path text)

/-! ## Ports -/

/-- A port, and the file that its bytes go through. -/
structure LivePort where
  port : SerialPort
  file : IO.FS.Handle

/-- The most bytes that are taken from a file at once. -/
def chunkSize : USize := 4096

namespace LivePort

/-- Sends what is to be sent, and takes what has arrived. A port that fails has lost its device. -/
def exchange (l : LivePort) : IO LivePort := do
  let moved ← EIO.toBaseIO do
    l.file.write ⟨l.port.sent.toArray⟩
    l.file.flush
    l.file.read chunkSize
  match moved with
  | .ok bytes => pure { l with port := { l.port.receive bytes.toList with sent := [] } }
  | .error _ => pure { l with port := l.port.detach }

/-- Waits for the answer to the idle command, with a read that began at some instant. A line that
was passed over has ended that read, and the next one begins when it is looked for. -/
partial def awaitReply (began : Nat) (l : LivePort) :
    IO (Except BenchError IdleReply × LivePort) := do
  let now ← IO.monoMsNow
  let r := IdleGate.awaitReply (some now) l.port (.newRound began)
  let passedOver := Link.backlog r.link < Link.backlog l.port
  let l := { l with port := r.link }
  match r.ending with
  | .done reply => pure (.ok reply, l)
  | .failed e => pure (.error e, l)
  | .stalled => awaitReply (if passedOver then now else began) (← l.exchange)

/-- The most milliseconds that are slept at once. -/
def longestSleepMs : Nat := UInt32.size - 1

/-- Lets some milliseconds pass, however many they are. -/
def pause (ms : Nat) : IO Unit := do
  for _ in [0:ms / longestSleepMs] do
    IO.sleep (UInt32.ofNat longestSleepMs)
  IO.sleep (UInt32.ofNat (ms % longestSleepMs))

/-- A device behind a port. -/
def inquiry : Inquiry (StateT LivePort IO) where
  name := return (← get).port.name
  question := do
    let l ← get
    let (outcome, port) := l.port.write idleCommand
    set (← { l with port }.exchange)
    return outcome.mapError .link
  reply := do
    let (outcome, l) ← awaitReply (← IO.monoMsNow) (← get)
    set l
    return outcome
  pause ms := pause ms

def waitUntilIdle (gate : IdleGate) (l : LivePort) : IO (Except BenchError Unit × LivePort) := do
  let (outcome, l) ← (gate.inquire inquiry gate.maxAttempts 0).run l
  pure (outcome.map fun _ => (), l)

end LivePort

/-- The ports that are open. -/
structure OpenPorts where
  first : Option LivePort := none
  second : Option LivePort := none

namespace OpenPorts

def openPort (ports : IO.Ref OpenPorts) (settings : SerialSettings) (side : Side) (path : String) :
    IO (Except LinkError Unit) := do
  match ← EIO.toBaseIO (IO.FS.Handle.mk path .readWrite) with
  | .error e =>
    pure (.error (.cannotOpen path (StorageFailure.ofError e).description))
  | .ok file =>
    if ← file.isTty then
      let port : SerialPort := { name := path, readTimeoutMs := settings.readTimeoutMs }
      ports.modify fun p =>
        match side with
        | .first => { p with first := some { port, file } }
        | .second => { p with second := some { port, file } }
      pure (.ok ())
    else pure (.error (.cannotOpen path "Not a typewriter"))

def withBoth {α : Type} (ports : IO.Ref OpenPorts)
    (work : LivePort → LivePort → IO (Except BenchError α × LivePort × LivePort)) :
    IO (Except BenchError α) := do
  match ← ports.get with
  | { first := some first, second := some second } =>
    let (outcome, first, second) ← work first second
    ports.set { first := some first, second := some second }
    pure outcome
  | _ => throw (IO.userError "both ports have to be open")

def clearInput (ports : IO.Ref OpenPorts) : IO (Except BenchError Unit) :=
  withBoth ports fun first second => do
    let first ← first.exchange
    let second ← second.exchange
    let s : Session SerialPort := { first := first.port, second := second.port }
    let (outcome, s) := s.clearInput
    pure (outcome, { first with port := s.first }, { second with port := s.second })

def ensureIdle (ports : IO.Ref OpenPorts) (gate : IdleGate) : IO (Except BenchError Unit) :=
  withBoth ports fun first second => do
    match ← first.waitUntilIdle gate with
    | (.error e, first) => pure (.error e, first, second)
    | (.ok (), first) =>
      let (outcome, second) ← second.waitUntilIdle gate
      pure (outcome, first, second)

partial def advance (b : Bracket) (capacity deadline : Nat) (first second : IO.FS.Handle)
    (c : Course SerialPort) : IO (Phase.Close × Course SerialPort) := do
  let (close, c) := c.run b capacity (min (← IO.monoMsNow) deadline)
  let near ← { port := c.phase.first.link, file := first : LivePort }.exchange
  let far ← { port := c.phase.second.link, file := second : LivePort }.exchange
  let p := { c.phase with
    first := { c.phase.first with link := near.port }
    second := { c.phase.second with link := far.port } }
  let c := { c with phase := p }
  match close with
  | .timeUp =>
    if deadline ≤ p.now then pure (close, c)
    else advance b capacity deadline first second c
  | _ => pure (close, c)

def runPhase (ports : IO.Ref OpenPorts) (settings : PhaseSettings) (b : Bracket) :
    IO (Except BenchError (List Event)) :=
  withBoth ports fun first second => do
    let began ← IO.monoMsNow
    let capacity := max 1 settings.channelCapacity
    match Phase.begin? capacity began first.port second.port with
    | none => pure (.error (.queueTooLarge capacity), first, second)
    | some p =>
      let (close, c) ←
        advance b capacity (began + settings.timeoutMs) first.file second.file { phase := p }
      let first := { first with port := c.phase.first.link }
      let second := { second with port := c.phase.second.link }
      match Session.phaseEnding settings none b began c.phase close with
      | .done log => pure (.ok log, first, second)
      | .failed e => pure (.error e, first, second)
      | .stalled => throw (IO.userError "a phase without a limit was given up")

end OpenPorts

/-! ## The host -/

def localTime : IO Stamp := do
  let t ← Std.Time.PlainDateTime.now
  pure {
    year := t.date.year.toInt
    month := t.date.month.val.toNat
    day := t.date.day.val.toNat
    hour := t.time.hour.val.toNat
    minute := t.time.minute.val.toNat
    second := t.time.second.val.toNat
    nanosecond := t.time.nanosecond.val.toNat }

def machine (ports : IO.Ref OpenPorts) : Host IO where
  storage := machineStorage
  openPort := OpenPorts.openPort ports
  clearInput := OpenPorts.clearInput ports
  executor c := {
    ensureIdle := OpenPorts.ensureIdle ports (IdleGate.ofSettings c.idle)
    runPhase := OpenPorts.runPhase ports c.phase }
  localTime := localTime
  print := IO.print
  complain := IO.eprint

end BoardBench

def main (arguments : List String) : IO UInt32 := do
  let environment ← IO.getEnv BoardBench.CommandLine.configVariable
  let ports ← IO.mkRef {}
  let code ← BoardBench.Program.run (BoardBench.machine ports) environment arguments
  pure (UInt32.ofNat code.number)
