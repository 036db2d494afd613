import BoardBench.Link
import BoardBench.Text.Blank
import BoardBench.Text.Utf8

/-!
# Serial ports

A serial port as a stream of bytes. Bytes from the device arrive and wait in the port; a read that
needs more than it has buffered takes all that has arrived. A line ends with a line feed, and
decoding it never fails: what is not ASCII is rejected with the text that could be made of it.

A read that gives up drops the unfinished line. Once the device is gone nothing more arrives, what
had not been buffered is lost, and an unfinished rest counts as a last line.
-/

set_option autoImplicit false

namespace BoardBench

/-- An open port. -/
structure SerialPort where
  name : String
  readTimeoutMs : Nat
  buffered : List UInt8 := []
  arrived : List UInt8 := []
  sent : List UInt8 := []
  attached : Bool := true
deriving Repr, DecidableEq

namespace SerialPort

def lineFeed : UInt8 := 10

def receive (bytes : List UInt8) (p : SerialPort) : SerialPort :=
  if p.attached then { p with arrived := p.arrived ++ bytes } else p

def detach (p : SerialPort) : SerialPort :=
  { p with attached := false, arrived := [] }

def lineBytes (line : String) : List UInt8 :=
  Text.encode line ++ [lineFeed]

def write (line : String) (p : SerialPort) : Except LinkError Unit × SerialPort :=
  if p.attached then (.ok (), { p with sent := p.sent ++ lineBytes line })
  else (.error (.write p.name "Input/output error (os error 5)"), p)

def clear (p : SerialPort) : Except LinkError Unit × SerialPort :=
  if p.attached then (.ok (), { p with buffered := [], arrived := [] })
  else (.error (.read p.name "I/O error"), { p with buffered := [] })

/-- The line that some bytes make up: trimmed, and rejected unless all of them are ASCII. -/
def interpret (port : String) (bytes : List UInt8) : Except LinkError String :=
  let text := String.ofList (Text.trim (Text.decodeLossy bytes))
  if Text.isAscii bytes then .ok text else .error (.nonAscii port text)

/-- Cuts bytes behind the first line feed; `none` if there is none. -/
def cutLine : List UInt8 → Option (List UInt8 × List UInt8)
  | [] => none
  | b :: bs =>
    if b = lineFeed then some ([b], bs) else (cutLine bs).map fun (line, rest) => (b :: line, rest)

def available (p : SerialPort) : List UInt8 :=
  p.buffered ++ p.arrived

def hasLine (p : SerialPort) : Bool :=
  p.available.contains lineFeed

/-- Reads a line from what has arrived. If no line is finished, the read ends with the time-out, or
with the end of the stream. -/
def read (p : SerialPort) : Except LinkError String × SerialPort :=
  match cutLine p.buffered with
  | some (line, rest) => (interpret p.name line, { p with buffered := rest })
  | none =>
    match cutLine p.available with
    | some (line, rest) => (interpret p.name line, { p with buffered := rest, arrived := [] })
    | none =>
      let drained := { p with buffered := [], arrived := [] }
      if p.attached then (.error (.timeout p.name p.readTimeoutMs), drained)
      else if p.available.isEmpty then (.error (.closed p.name), drained)
      else (interpret p.name p.available, drained)

/-! ## Cutting lines -/

theorem cutLine_append {bs line rest : List UInt8} (h : cutLine bs = some (line, rest)) :
    line ++ rest = bs := by
  induction bs generalizing line rest with
  | nil => cases h
  | cons b bs ih =>
    rw [cutLine] at h
    split at h
    · cases h
      rfl
    · obtain ⟨⟨l, r⟩, hl, he⟩ := Option.map_eq_some_iff.1 h
      cases he
      simp [ih hl]

theorem cutLine_ne_nil {bs line rest : List UInt8} (h : cutLine bs = some (line, rest)) :
    line ≠ [] := by
  cases bs with
  | nil => cases h
  | cons b bs =>
    rw [cutLine] at h
    split at h
    · cases h
      simp
    · obtain ⟨⟨l, r⟩, hl, he⟩ := Option.map_eq_some_iff.1 h
      cases he
      simp

/-- A read that yields a line, accepted or rejected, uses bytes up. -/
theorem length_available_read_lt {p : SerialPort} (h : tookLine p.read.1 = true) :
    p.read.2.available.length < p.available.length := by
  unfold read at h ⊢
  split
  · rename_i line rest hc
    have ha := congrArg List.length (cutLine_append hc)
    have hn := List.length_pos_iff.2 (cutLine_ne_nil hc)
    simp only [available, List.length_append] at ha ⊢
    omega
  · split
    · rename_i line rest hc
      have ha := congrArg List.length (cutLine_append hc)
      have hn := List.length_pos_iff.2 (cutLine_ne_nil hc)
      simp only [available, List.length_append, List.length_nil] at ha ⊢
      omega
    · split
      · simp_all [tookLine, LinkError.isRejectedLine]
      · split
        · simp_all [tookLine, LinkError.isRejectedLine]
        · rename_i hne
          have := List.length_pos_iff.2 (by simpa using hne : p.available ≠ [])
          simpa [available] using this

/-- How a read goes on if nothing more arrives: at once if it need not wait, and else as long as the
port waits. -/
def reading (p : SerialPort) : Reading SerialPort :=
  .after (if p.hasLine || !p.attached then 0 else p.readTimeoutMs) p.read.1 p.read.2

end SerialPort

instance : Link SerialPort where
  name := SerialPort.name
  write := SerialPort.write
  read := SerialPort.reading
  clear := SerialPort.clear
  backlog p := p.available.length
  backlog_lt h ht := by
    cases h
    exact SerialPort.length_available_read_lt ht

end BoardBench
