import BoardBench.Link.Board
import Mathlib.Data.List.Basic

/-!
# Serial ports — lines depend on the bytes, not on how they arrive

Bytes arrive in chunks, before a read or while it waits, and a port may hold more of them than a
read needs. None of this shows: only the order of the bytes matters, and where among them lines are
read, reads time out, or the port is cleared. `SerialPort.Framed` says what then becomes of every
byte. **A read takes what is not read yet up to the first line feed; a read that times out and a
clear drop all of it; and nothing else is lost, so that the lines that are read are the segments of
the bytes that are not dropped** (`SerialPort.lines_depend_on_the_bytes`).

`SerialPort.readDuring` is a read while chunks arrive; so is the read of a board
(`SerialPort.read_board`). It may need any number of them for a line, or get more than it needs
(`SerialPort.readDuring_takes`).

Chunks belong to the transport. So the operations that have them are mapped to happenings that do
not (`Operation.happenings`), and `Framed` is a relation on these alone. That two runs with the same
happenings come to the same is then its uniqueness (`Framed.unique`), and two runs are never
compared with one another. Bytes that arrive while a read waits are part of that read, as it takes
them into account before it gives up.
-/

set_option autoImplicit false

namespace BoardBench.SerialPort

/-! ## Cutting lines -/

theorem cutLine_segment {front rest : List UInt8} (h : lineFeed ∉ front) :
    cutLine (front ++ lineFeed :: rest) = some (front ++ [lineFeed], rest) := by
  induction front with
  | nil => exact if_pos rfl
  | cons b front ih =>
    obtain ⟨hb, hfront⟩ := not_or.1 (mt List.mem_cons.2 h)
    rw [List.cons_append, cutLine, if_neg (Ne.symm hb), ih hfront]
    rfl

theorem cutLine_unfinished {bytes : List UInt8} (h : lineFeed ∉ bytes) : cutLine bytes = none := by
  induction bytes with
  | nil => rfl
  | cons b bytes ih =>
    obtain ⟨hb, hbytes⟩ := not_or.1 (mt List.mem_cons.2 h)
    rw [cutLine, if_neg (Ne.symm hb), ih hbytes]
    rfl

/-- There is only one first line feed. -/
theorem segment_unique {front front' rest rest' : List UInt8} (h : lineFeed ∉ front)
    (h' : lineFeed ∉ front')
    (heq : front ++ lineFeed :: rest = front' ++ lineFeed :: rest') :
    front = front' ∧ rest = rest' := by
  have hcut : cutLine (front ++ lineFeed :: rest) = some (front ++ [lineFeed], rest) :=
    cutLine_segment h
  rw [heq, cutLine_segment h', Option.some.injEq, Prod.mk.injEq] at hcut
  exact ⟨(List.append_cancel_right hcut.1).symm, hcut.2.symm⟩

/-! ## Reading from what has arrived -/

/-- What a segment is heard as: its text without the white space around it if all of its bytes are
below `0x80`, and otherwise an error with what could be made of it. -/
def heardAs (port : String) (segment : List UInt8) : Except LinkError String :=
  if segment.all fun b => b.toNat < 0x80 then
    .ok (String.ofList (Text.trim (segment.map fun b => Char.ofNat b.toNat)))
  else .error (.nonAscii port (String.ofList (Text.trim (Text.decodeLossy segment))))

theorem interpret_eq_heardAs (port : String) (segment : List UInt8) :
    interpret port segment = heardAs port segment := by
  have hascii : (segment.all fun b => b.toNat < 0x80) = Text.isAscii segment := by
    simp [Text.isAscii, UInt8.lt_iff_toNat_lt]
  rw [interpret, heardAs, hascii]
  by_cases h : Text.isAscii segment = true
  · rw [if_pos h, if_pos h, Text.decodeLossy_of_isAscii h]
  · rw [if_neg h, if_neg h]

/-- The same port, on which something was read or has arrived. -/
structure Same (p q : SerialPort) : Prop where
  name : q.name = p.name
  readTimeoutMs : q.readTimeoutMs = p.readTimeoutMs
  attached : q.attached = p.attached

theorem Same.trans {p q r : SerialPort} (h : Same p q) (h' : Same q r) : Same p r :=
  ⟨h'.name.trans h.name, h'.readTimeoutMs.trans h.readTimeoutMs, h'.attached.trans h.attached⟩

variable {p : SerialPort} {front rest unread left : List UInt8}

theorem same_read (p : SerialPort) : Same p p.read.2 := by
  unfold read
  split
  · exact ⟨rfl, rfl, rfl⟩
  · split
    · exact ⟨rfl, rfl, rfl⟩
    · split
      · exact ⟨rfl, rfl, rfl⟩
      · split <;> exact ⟨rfl, rfl, rfl⟩

/-- A read takes the first line off, whether or not it is buffered. -/
theorem read_segment (hfront : lineFeed ∉ front)
    (h : p.available = front ++ lineFeed :: rest) :
    p.read.1 = heardAs p.name (front ++ [lineFeed]) ∧ p.read.2.available = rest := by
  rw [← interpret_eq_heardAs]
  by_cases hbuffered : lineFeed ∈ p.buffered
  · obtain ⟨front', rest', hsplit, hfront'⟩ := List.eq_append_cons_of_mem hbuffered
    have hcut : cutLine p.buffered = some (front' ++ [lineFeed], rest') := by
      rw [hsplit, cutLine_segment hfront']
    have havailable : front' ++ lineFeed :: (rest' ++ p.arrived) = front ++ lineFeed :: rest := by
      rw [← h, available, hsplit, List.append_assoc, List.cons_append]
    obtain ⟨rfl, rfl⟩ := segment_unique hfront' hfront havailable
    rw [read, hcut]
    exact ⟨rfl, rfl⟩
  · rw [read, cutLine_unfinished hbuffered]
    dsimp only
    rw [h, cutLine_segment hfront]
    exact ⟨rfl, List.append_nil rest⟩

theorem read_unfinished (hp : p.attached = true) (h : lineFeed ∉ p.available) :
    p.read.1 = .error (.timeout p.name p.readTimeoutMs) ∧ p.read.2.available = [] := by
  have hbuffered : lineFeed ∉ p.buffered := fun hmem => h (List.mem_append_left _ hmem)
  rw [read, cutLine_unfinished hbuffered]
  dsimp only
  rw [cutLine_unfinished h]
  dsimp only
  rw [if_pos hp]
  exact ⟨rfl, rfl⟩

/-! ## Chunks -/

/-- Bytes arrive chunk by chunk. -/
def receiveAll (chunks : List (List UInt8)) (p : SerialPort) : SerialPort :=
  chunks.foldl (fun p chunk => p.receive chunk) p

/-- Reads a line while some chunks arrive. The read ends as soon as there is a line, and what is
still to come arrives behind it; if there is none after the last chunk, the read gives up. -/
def readDuring : List (List UInt8) → SerialPort → Except LinkError String × SerialPort
  | [], p => p.read
  | chunk :: later, p =>
    if p.hasLine then (p.read.1, p.read.2.receiveAll (chunk :: later))
    else readDuring later (p.receive chunk)

theorem same_receive (chunk : List UInt8) (p : SerialPort) : Same p (p.receive chunk) := by
  unfold receive
  split <;> exact ⟨rfl, rfl, rfl⟩

theorem available_receive (hp : p.attached = true) (chunk : List UInt8) :
    (p.receive chunk).available = p.available ++ chunk := by
  rw [receive, if_pos hp, available, available, List.append_assoc]

theorem receiveAll_spec (hp : p.attached = true) (chunks : List (List UInt8)) :
    Same p (p.receiveAll chunks) ∧
      (p.receiveAll chunks).available = p.available ++ chunks.flatten := by
  induction chunks generalizing p with
  | nil => exact ⟨⟨rfl, rfl, rfl⟩, (List.append_nil _).symm⟩
  | cons chunk chunks ih =>
    have hsame := same_receive chunk p
    obtain ⟨hrest, havailable⟩ := ih (p := p.receive chunk) (hsame.attached.trans hp)
    refine ⟨hsame.trans hrest, havailable.trans ?_⟩
    rw [available_receive hp, List.append_assoc, List.flatten_cons]

/-- The read of a board is of this kind: what is on its way arrives while the read waits, or only
behind it. -/
theorem read_board (b : Board) :
    ∃ delayMs chunks coming, chunks.flatten ++ coming = b.coming ∧
      b.read = .after delayMs (b.port.readDuring chunks).1
        { b with port := (b.port.readDuring chunks).2, coming := coming } := by
  unfold Board.read
  split
  · exact ⟨0, [], b.coming, rfl, rfl⟩
  · rename_i hline
    have hduring : b.port.readDuring [b.coming] = b.settled.read := by
      rw [readDuring, if_neg hline]
      rfl
    split
    · exact ⟨Board.latencyMs, [b.coming], [], by simp, by rw [hduring]⟩
    · exact ⟨b.port.readTimeoutMs, [], b.coming, rfl, rfl⟩

/-! ## What becomes of bytes -/

/-- What becomes of bytes that have arrived: a read takes a segment off, or a read that times out or
a clear drops all that is there. -/
inductive Fate where
  | segment (bytes : List UInt8)
  | timedOut (bytes : List UInt8)
  | cleared (bytes : List UInt8)
deriving Repr, DecidableEq

namespace Fate

def bytes : Fate → List UInt8
  | segment bytes => bytes
  | timedOut bytes => bytes
  | cleared bytes => bytes

/-- The segment that was read. -/
def segment? : Fate → Option (List UInt8)
  | segment bytes => some bytes
  | _ => none

/-- What came of the read, if it was one. -/
def outcome? (port : String) (timeoutMs : Nat) : Fate → Option (Except LinkError String)
  | segment bytes => some (heardAs port bytes)
  | timedOut _ => some (.error (.timeout port timeoutMs))
  | cleared _ => none

end Fate

/-- What a read does with the bytes that are not read yet, those included that arrive while it
waits, and which of them are left. -/
inductive Taken : List UInt8 → Fate → List UInt8 → Prop
  | line {front rest : List UInt8} (hfront : lineFeed ∉ front) :
      Taken (front ++ lineFeed :: rest) (.segment (front ++ [lineFeed])) rest
  | late {bytes : List UInt8} (hbytes : lineFeed ∉ bytes) : Taken bytes (.timedOut bytes) []

theorem Taken.unique {fate fate' : Fate} {left' : List UInt8} (h : Taken unread fate left)
    (h' : Taken unread fate' left') : fate = fate' ∧ left = left' := by
  cases h with
  | late hbytes =>
    cases h' with
    | late => exact ⟨rfl, rfl⟩
    | line => exact absurd (List.mem_append_right _ List.mem_cons_self) hbytes
  | line hfront =>
    generalize hsplit : _ ++ lineFeed :: _ = unread at h'
    cases h' with
    | late hbytes => exact absurd (hsplit ▸ List.mem_append_right _ List.mem_cons_self) hbytes
    | line hfront' =>
      obtain ⟨rfl, rfl⟩ := segment_unique hfront hfront' hsplit
      exact ⟨rfl, rfl⟩

theorem Taken.conserved {fate : Fate} (h : Taken unread fate left) :
    unread = fate.bytes ++ left := by
  cases h with
  | line => simp [Fate.bytes]
  | late => exact (List.append_nil _).symm

theorem read_takes (hp : p.attached = true) :
    ∃ fate, Taken p.available fate p.read.2.available ∧
      fate.outcome? p.name p.readTimeoutMs = some p.read.1 := by
  by_cases h : lineFeed ∈ p.available
  · obtain ⟨front, rest, hsplit, hfront⟩ := List.eq_append_cons_of_mem h
    obtain ⟨houtcome, hrest⟩ := read_segment hfront hsplit
    exact ⟨.segment (front ++ [lineFeed]), by rw [hsplit, hrest]; exact .line hfront,
      congrArg some houtcome.symm⟩
  · obtain ⟨houtcome, hrest⟩ := read_unfinished hp h
    exact ⟨.timedOut p.available, by rw [hrest]; exact .late h, congrArg some houtcome.symm⟩

/-- **However many chunks a read needs, it takes the first line off**, or drops what has arrived. -/
theorem readDuring_takes (hp : p.attached = true) (chunks : List (List UInt8)) :
    Same p (p.readDuring chunks).2 ∧
      ∃ fate, Taken (p.available ++ chunks.flatten) fate (p.readDuring chunks).2.available ∧
        fate.outcome? p.name p.readTimeoutMs = some (p.readDuring chunks).1 := by
  induction chunks generalizing p with
  | nil =>
    rw [List.flatten_nil, List.append_nil]
    exact ⟨same_read p, read_takes hp⟩
  | cons chunk later ih =>
    rw [readDuring]
    split
    · rename_i hline
      -- the line is there already, so everything that is still to come is left behind it
      have hmem : lineFeed ∈ p.available := List.contains_iff_mem.1 hline
      obtain ⟨front, rest, hsplit, hfront⟩ := List.eq_append_cons_of_mem hmem
      obtain ⟨houtcome, hrest⟩ := read_segment hfront hsplit
      have hread := same_read p
      obtain ⟨hsame, hleft⟩ := receiveAll_spec (hread.attached.trans hp) (chunk :: later)
      refine ⟨hread.trans hsame, .segment (front ++ [lineFeed]), ?_, congrArg some houtcome.symm⟩
      rw [hsplit, hleft, hrest, List.append_assoc, List.cons_append]
      exact .line hfront
    · have hsame := same_receive chunk p
      obtain ⟨hlater, htaken⟩ := ih (hsame.attached.trans hp)
      rw [available_receive hp, hsame.name, hsame.readTimeoutMs, List.append_assoc,
        ← List.flatten_cons] at htaken
      exact ⟨hsame.trans hlater, htaken⟩

/-! ## Runs -/

/-- What can happen to a port, with the chunks in which bytes arrive. -/
inductive Operation where
  | arrive (chunk : List UInt8)
  | read (meanwhile : List (List UInt8))
  | clear
deriving Repr, DecidableEq

/-- The same without the chunks. -/
inductive Happening where
  | byte (b : UInt8)
  | read (meanwhile : List UInt8)
  | clear
deriving Repr, DecidableEq

def Operation.happenings : Operation → List Happening
  | arrive chunk => chunk.map .byte
  | read meanwhile => [.read meanwhile.flatten]
  | clear => [.clear]

/-- The bytes that arrive. -/
def Happening.bytes : Happening → List UInt8
  | byte b => [b]
  | read meanwhile => meanwhile
  | clear => []

/-- The port after an operation, and what came of it if it was a read. -/
def perform (p : SerialPort) : Operation → Option (Except LinkError String) × SerialPort
  | .arrive chunk => (none, p.receive chunk)
  | .read meanwhile =>
    let (outcome, q) := p.readDuring meanwhile
    (some outcome, q)
  | .clear => (none, p.clear.2)

/-- The same of several operations, one after the other. -/
def performAll : List Operation → SerialPort → List (Except LinkError String) × SerialPort
  | [], p => ([], p)
  | o :: ops, p =>
    let (outcomes, q) := performAll ops (p.perform o).2
    ((p.perform o).1.toList ++ outcomes, q)

/-- What becomes of all bytes, from those on that are not read yet, and which of them are left. -/
inductive Framed : List UInt8 → List Happening → List Fate → List UInt8 → Prop
  | nil (unread : List UInt8) : Framed unread [] [] unread
  | byte {b : UInt8} {unread left : List UInt8} {hs : List Happening} {fates : List Fate}
      (h : Framed (unread ++ [b]) hs fates left) : Framed unread (.byte b :: hs) fates left
  | read {unread meanwhile rest left : List UInt8} {fate : Fate} {hs : List Happening}
      {fates : List Fate} (htaken : Taken (unread ++ meanwhile) fate rest)
      (h : Framed rest hs fates left) :
      Framed unread (.read meanwhile :: hs) (fate :: fates) left
  | clear {unread left : List UInt8} {hs : List Happening} {fates : List Fate}
      (h : Framed [] hs fates left) : Framed unread (.clear :: hs) (.cleared unread :: fates) left

variable {hs : List Happening} {fates : List Fate}

theorem Framed.unique {fates' : List Fate} {left' : List UInt8} (h : Framed unread hs fates left)
    (h' : Framed unread hs fates' left') : fates = fates' ∧ left = left' := by
  induction h generalizing fates' left' with
  | nil =>
    cases h'
    exact ⟨rfl, rfl⟩
  | byte _ ih =>
    cases h' with
    | byte h' => exact ih h'
  | read htaken _ ih =>
    cases h' with
    | read htaken' h' =>
      obtain ⟨rfl, rfl⟩ := htaken.unique htaken'
      obtain ⟨rfl, rfl⟩ := ih h'
      exact ⟨rfl, rfl⟩
  | clear _ ih =>
    cases h' with
    | clear h' =>
      obtain ⟨rfl, rfl⟩ := ih h'
      exact ⟨rfl, rfl⟩

theorem Framed.arrive {chunk : List UInt8} (h : Framed (unread ++ chunk) hs fates left) :
    Framed unread (chunk.map .byte ++ hs) fates left := by
  induction chunk generalizing unread with
  | nil => rwa [List.append_nil] at h
  | cons b chunk ih => exact .byte (ih (by rwa [List.append_assoc]))

/-- Every byte has one fate or is left, in the order of arrival. -/
theorem Framed.conserved (h : Framed unread hs fates left) :
    unread ++ hs.flatMap Happening.bytes = fates.flatMap Fate.bytes ++ left := by
  induction h with
  | nil unread => exact List.append_nil unread
  | byte _ ih => rwa [List.append_assoc] at ih
  | read htaken _ ih =>
    rw [List.flatMap_cons, List.flatMap_cons, ← List.append_assoc, Happening.bytes,
      htaken.conserved, List.append_assoc, ih, List.append_assoc]
  | clear _ ih =>
    rw [List.flatMap_cons, List.flatMap_cons, List.append_assoc, ← ih]
    rfl

/-- The bytes up to each line feed. -/
def segments (bytes : List UInt8) : List (List UInt8) :=
  (bytes.splitOn lineFeed).dropLast.map (· ++ [lineFeed])

theorem segments_append (hfront : lineFeed ∉ front) :
    segments (front ++ lineFeed :: rest) = (front ++ [lineFeed]) :: segments rest := by
  rw [segments, List.splitOn_append_cons_self_of_not_mem hfront,
    List.dropLast_cons_of_ne_nil (List.splitOn_ne_nil _ _)]
  rfl

/-- The segments that are read are the first ones of what is not dropped. -/
theorem Framed.segments_eq (h : Framed unread hs fates left) :
    segments ((fates.filterMap Fate.segment?).flatten ++ left) =
      fates.filterMap Fate.segment? ++ segments left := by
  induction h with
  | nil => rfl
  | byte _ ih => exact ih
  | clear _ ih => exact ih
  | @read unread meanwhile _ _ _ _ _ htaken _ ih =>
    generalize unread ++ meanwhile = bytes at htaken
    cases htaken with
    | late => exact ih
    | line hfront =>
      simp only [List.filterMap_cons, Fate.segment?, List.flatten_cons, List.append_assoc,
        List.nil_append, List.cons_append, segments_append hfront, ih]

theorem clear_eq (hp : p.attached = true) :
    p.clear.2 = { p with buffered := [], arrived := [] } := by
  rw [SerialPort.clear, if_pos hp]

theorem same_perform (hp : p.attached = true) (o : Operation) : Same p (p.perform o).2 := by
  cases o with
  | arrive chunk => exact same_receive chunk p
  | read meanwhile => exact (readDuring_takes hp meanwhile).1
  | clear =>
    show Same p p.clear.2
    rw [clear_eq hp]
    exact ⟨rfl, rfl, rfl⟩

/-- What one operation does, and what comes of everything behind it. -/
theorem Framed.perform {o : Operation} (hp : p.attached = true)
    (h : Framed (p.perform o).2.available hs fates left) :
    ∃ fate : Option Fate, Framed p.available (o.happenings ++ hs) (fate.toList ++ fates) left ∧
      (p.perform o).1 = fate.bind (Fate.outcome? p.name p.readTimeoutMs) := by
  cases o with
  | arrive chunk => exact ⟨none, .arrive (by rwa [← available_receive hp]), rfl⟩
  | read meanwhile =>
    obtain ⟨-, fate, htaken, houtcome⟩ := readDuring_takes hp meanwhile
    exact ⟨some fate, .read htaken h, houtcome.symm⟩
  | clear =>
    have hempty : (p.perform .clear).2.available = [] := by
      show p.clear.2.available = []
      rw [clear_eq hp]
      rfl
    exact ⟨some (.cleared p.available), .clear (by rwa [hempty] at h), rfl⟩

/-- The same of a whole run. -/
theorem framed_performAll (hp : p.attached = true) (ops : List Operation) :
    ∃ fates,
      Framed p.available (ops.flatMap Operation.happenings) fates
        (p.performAll ops).2.available ∧
      (p.performAll ops).1 = fates.filterMap (Fate.outcome? p.name p.readTimeoutMs) := by
  induction ops generalizing p with
  | nil => exact ⟨[], .nil _, rfl⟩
  | cons o ops ih =>
    have hsame := same_perform hp o
    obtain ⟨fates, hrest, houtcomes⟩ := ih (hsame.attached.trans hp)
    obtain ⟨fate, hframed, houtcome⟩ := hrest.perform hp
    refine ⟨fate.toList ++ fates, hframed, ?_⟩
    show (p.perform o).1.toList ++ ((p.perform o).2.performAll ops).1 = _
    rw [houtcome, houtcomes, hsame.name, hsame.readTimeoutMs, List.filterMap_append]
    cases fate with
    | none => rfl
    | some fate => cases fate <;> rfl

/-- **Which lines are read depends on the bytes alone**, on where among them lines are read and the
port is cleared, and on which of them are there when a read gives up. What becomes of them is what
`Framed` says; every byte has one fate, or is left; and the segments that are read are the first
ones of all that was not dropped. Another way of cutting the same bytes into chunks makes no
difference to what is read or left. -/
theorem lines_depend_on_the_bytes (p : SerialPort) (ops : List Operation)
    (hp : p.attached = true) :
    ∃ fates,
      Framed p.available (ops.flatMap Operation.happenings) fates (p.performAll ops).2.available ∧
      (p.performAll ops).1 = fates.filterMap (Fate.outcome? p.name p.readTimeoutMs) ∧
      p.available ++ (ops.flatMap Operation.happenings).flatMap Happening.bytes =
        fates.flatMap Fate.bytes ++ (p.performAll ops).2.available ∧
      segments ((fates.filterMap Fate.segment?).flatten ++ (p.performAll ops).2.available) =
        fates.filterMap Fate.segment? ++ segments (p.performAll ops).2.available ∧
      ∀ (q : SerialPort) (others : List Operation), Same p q → q.available = p.available →
        others.flatMap Operation.happenings = ops.flatMap Operation.happenings →
        (q.performAll others).1 = (p.performAll ops).1 ∧
          (q.performAll others).2.available = (p.performAll ops).2.available := by
  obtain ⟨fates, hframed, houtcomes⟩ := framed_performAll hp ops
  refine ⟨fates, hframed, houtcomes, hframed.conserved, hframed.segments_eq, ?_⟩
  intro q others hsame havailable hhappenings
  obtain ⟨fates', hframed', houtcomes'⟩ := framed_performAll (hsame.attached.trans hp) others
  rw [havailable, hhappenings] at hframed'
  obtain ⟨rfl, hleft⟩ := hframed.unique hframed'
  rw [houtcomes, houtcomes', hsame.name, hsame.readTimeoutMs]
  exact ⟨rfl, hleft.symm⟩

/-- Two lines, the second of which is not ASCII and is cut inside a character, an empty line, one
that is cleared, and one that is not finished in time. -/
def conversation : List Operation := [
    .arrive [0x20, 0x61, 0x0D], .read [[0x0A, 0x63]], .read [[0xC3], [0xA9, 0x0A, 0x0A]], .read [],
    .arrive [0x64, 0x0A], .clear, .arrive [0x78], .read [[0x79]], .arrive [0x7A, 0x0A], .read []]

/-- The same bytes in other chunks. -/
def conversationInPieces : List Operation := [
    .arrive [0x20], .arrive [0x61, 0x0D], .read [[0x0A], [0x63]],
    .read [[0xC3, 0xA9, 0x0A], [0x0A]], .read [], .arrive [0x64], .arrive [0x0A], .clear,
    .arrive [], .arrive [0x78], .read [[], [0x79]], .arrive [0x7A, 0x0A], .read []]

theorem conversation_depends_on_its_bytes :
    let p : SerialPort := { name := "pty0", readTimeoutMs := 50 }
    p.attached = true ∧
      (p.performAll conversation).1 =
        [.ok "a", .error (.nonAscii "pty0" "cé"), .ok "", .error (.timeout "pty0" 50), .ok "z"] ∧
      (p.performAll conversationInPieces).1 = (p.performAll conversation).1 := by
  intro p
  obtain ⟨_, -, -, -, -, hchunks⟩ := lines_depend_on_the_bytes p conversation rfl
  obtain ⟨hsame, -⟩ := hchunks p conversationInPieces ⟨rfl, rfl, rfl⟩ rfl (by decide)
  exact ⟨rfl, by decide +kernel, hsame⟩

end BoardBench.SerialPort
