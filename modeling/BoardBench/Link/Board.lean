import BoardBench.Link.Replies
import BoardBench.Link.SerialPort

/-!
# Boards on serial ports

A board in memory at the other end of a serial port. It answers commands with its reply batches,
each line of which it ends with a line feed; an answer arrives a moment after the command was sent.

The scripted link takes lines; a board takes and gives bytes, through the buffer of a port. This is
what a program is run with, so that the timeouts and line ends of a port have their part in it. An
answer arrives as a whole, so that a line is there or on its way, but never there in part.
-/

set_option autoImplicit false

namespace BoardBench

/-- A board, with the port that it is attached to, the bytes that are on their way to the port, and
the commands that it received. -/
structure Board where
  port : SerialPort
  replies : Replies := []
  coming : List UInt8 := []
  received : List String := []
deriving Repr, DecidableEq

namespace Board

/-- How long an answer is on its way. -/
def latencyMs : Nat := 1

/-- Sends a command, which sets the answer on its way. -/
def write (line : String) (b : Board) : Except LinkError Unit × Board :=
  match b.port.write line with
  | (.error e, port) => (.error e, { b with port := port })
  | (.ok (), port) =>
    let (lines, replies) := b.replies.next line
    (.ok (), {
      port := port
      replies := replies
      coming := b.coming ++ lines.flatMap SerialPort.lineBytes
      received := b.received ++ [line] })

/-- The port once everything on its way is there. -/
def settled (b : Board) : SerialPort :=
  b.port.receive b.coming

/-- Reads a line: one that is there already, or one that arrives before the port gives up. -/
def read (b : Board) : Reading Board :=
  if b.port.hasLine then .after 0 b.port.read.1 { b with port := b.port.read.2 }
  else if b.settled.hasLine && latencyMs ≤ b.port.readTimeoutMs then
    .after latencyMs b.settled.read.1 { b with port := b.settled.read.2, coming := [] }
  else .after b.port.readTimeoutMs b.port.read.1 { b with port := b.port.read.2 }

def clear (b : Board) : Except LinkError Unit × Board :=
  let (outcome, port) := b.port.clear
  (outcome, { b with port := port })

/-- A bound on the bytes that can still be read. -/
def backlog (b : Board) : Nat :=
  b.port.available.length + b.coming.length

theorem length_available_settled_le (b : Board) :
    b.settled.available.length ≤ b.backlog := by
  unfold settled SerialPort.receive backlog
  split
  · simp [SerialPort.available, Nat.add_assoc]
  · simp

theorem backlog_read_lt {b b' : Board} {delayMs : Nat} {outcome : Except LinkError String}
    (h : b.read = .after delayMs outcome b') (ht : tookLine outcome = true) :
    b'.backlog < b.backlog := by
  have hs := b.length_available_settled_le
  unfold read at h
  split at h
  · cases h
    have := SerialPort.length_available_read_lt ht
    simp only [backlog]
    omega
  · split at h
    · cases h
      have := SerialPort.length_available_read_lt ht
      simp only [backlog, List.length_nil] at hs ⊢
      omega
    · cases h
      have := SerialPort.length_available_read_lt ht
      simp only [backlog]
      omega

end Board

instance : Link Board where
  name b := b.port.name
  write := Board.write
  read := Board.read
  clear := Board.clear
  backlog := Board.backlog
  backlog_lt := Board.backlog_read_lt

end BoardBench
