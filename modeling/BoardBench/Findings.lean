import BoardBench.Bounds
import BoardBench.Event

/-!
# Findings

What an evaluation finds: *diagnostics*, each of which is a violation, and *notes*, which are not.
A check adds one diagnostic per violation and succeeds if there is none. Findings only ever grow at
the end.

A diagnostic keeps what it is about, the channel, the position and the events, and is worded only at
the end by `Diagnostic.message`. So it can be said of which channel a diagnostic is, and which
events it blames, without taking a text apart again; that different violations are worded
differently is then a matter of its own. A check is a list of diagnostics that is computed first and
added at once. What a check finds does not depend on what was found before it.
-/

set_option autoImplicit false

namespace BoardBench

/-- How many events of a kind there are. -/
structure Tally where
  label : String
  count : Nat
deriving Repr, DecidableEq

/-- Two of the three sequences of pins that have to agree. -/
inductive PinPair where
  | risingFalling
  | risingToggled
  | fallingToggled
deriving Repr, DecidableEq

/-- What the two sequences are and where they were seen. -/
def PinPair.description : PinPair → String
  | .risingFalling => "rising and falling pins on tester"
  | .risingToggled => "rising pins on tester and sut"
  | .fallingToggled => "falling pins on tester and sut"

/-- A violation. Positions count from zero. -/
inductive Diagnostic where
  | plain (text : String)
  | missing (what : String)
  | counts (channel : String) (reference other : Tally)
  | spacing (channel what : String) (position : Nat) (bounds : Bounds) (previous current : UInt64)
  | skipped (channel check : String)
  | pins (pair : PinPair) (left right : String) (position : Nat)
  | character (channel : String) (position : Nat) (sent : Event) (receiver : String)
      (received : Event)
  | payload (channel : String) (position : Nat) (sent received : Event)
  | frame (channel : String) (position : Nat) (sent received : Event)
  | fewFrames (channel : String)
deriving Repr, DecidableEq

/-- The time from one stamp to another, in milliseconds; negative if the clock went back. -/
def elapsed (previous current : UInt64) : Int :=
  (current.toInt64 - previous.toInt64).toInt

/-- The last character of a payload as diagnostics show it. -/
def Event.shownLast (e : Event) : String :=
  String.ofList e.lastChar.toList

def Diagnostic.message : Diagnostic → String
  | .plain text => text
  | .missing what => "No " ++ what
  | .counts channel reference other =>
    channel ++ ": Number of " ++ reference.label ++ " (" ++ Text.decimal reference.count
      ++ ") does not match number of " ++ other.label ++ " (" ++ Text.decimal other.count ++ ")"
  | .spacing channel what position bounds previous current =>
    channel ++ ": " ++ what ++ " spacing of " ++ Text.signedDecimal (elapsed previous current)
      ++ "ms at index " ++ Text.decimal position ++ " not in interval ["
      ++ Text.signedDecimal bounds.min ++ ", " ++ Text.signedDecimal bounds.max
      ++ "] ms (previous: " ++ Text.decimal previous.toNat ++ "ms, current: "
      ++ Text.decimal current.toNat ++ "ms)"
  | .skipped channel check =>
    channel ++ ": Skipping " ++ check ++ " check since number of messages do not match"
  | .pins pair left right position =>
    "Unmatching " ++ pair.description ++ ": " ++ left ++ " != " ++ right ++ " at index "
      ++ Text.decimal position
  | .character channel position sent receiver received =>
    channel ++ ": Character at index " ++ Text.decimal position ++ " sent by tester ("
      ++ sent.shownLast ++ ") does not match character received by " ++ receiver ++ " ("
      ++ received.shownLast ++ ")"
  | .payload channel position sent received =>
    channel ++ ": Payload mismatch at index " ++ Text.decimal position ++ ". Send "
      ++ sent.payload ++ ", Received " ++ received.payload
  | .frame channel position sent received =>
    channel ++ ": Send message '" ++ sent.payload ++ "' does not match received message '"
      ++ received.payload ++ "' at index " ++ Text.decimal position ++ " (" ++ sent.shownLast
      ++ " != " ++ received.shownLast ++ ")"
  | .fewFrames channel =>
    channel ++ ": can not assert frequency because sample size is < 2 messages"

/-! ## Checks -/

/-- One diagnostic for each count that differs from the first one. -/
def countDiagnostics (channel : String) : List Tally → List Diagnostic
  | [] => []
  | reference :: others =>
    (others.filter (·.count != reference.count)).map (.counts channel reference)

/-- One diagnostic for each pair of neighbours whose distance in time is out of bounds. The
position is that of the later event. -/
def spacingDiagnostics (channel what : String) (bounds : Bounds) (events : List Event) :
    List Diagnostic :=
  (events.zip events.tail).zipIdx.filterMap fun ((previous, current), i) =>
    if bounds.contains (elapsed previous.timeMs current.timeMs) then none
    else some (.spacing channel what (i + 1) bounds previous.timeMs current.timeMs)

/-- The findings of an evaluation so far. -/
structure Findings where
  diagnostics : List Diagnostic := []
  notes : List String := []
deriving Repr, DecidableEq

namespace Findings

def error (d : Diagnostic) (f : Findings) : Findings :=
  { f with diagnostics := f.diagnostics ++ [d] }

def note (text : String) (f : Findings) : Findings :=
  { f with notes := f.notes ++ [text] }

/-- Adds the violations of a check, and tells whether the check succeeded. -/
def check (violations : List Diagnostic) (f : Findings) : Bool × Findings :=
  (violations.isEmpty, { f with diagnostics := f.diagnostics ++ violations })

/-- Checks that all counts are equal to the first one. -/
def checkCounts (channel : String) (tallies : List Tally) (f : Findings) : Bool × Findings :=
  f.check (countDiagnostics channel tallies)

/-- Checks that neighbouring events are the right time apart. -/
def checkSpacing (channel what : String) (bounds : Bounds) (events : List Event) (f : Findings) :
    Bool × Findings :=
  f.check (spacingDiagnostics channel what bounds events)

/-! ## What a check adds -/

@[simp] theorem check_fst (violations : List Diagnostic) (f : Findings) :
    (f.check violations).1 = violations.isEmpty := rfl

@[simp] theorem diagnostics_check (violations : List Diagnostic) (f : Findings) :
    (f.check violations).2.diagnostics = f.diagnostics ++ violations := rfl

@[simp] theorem notes_check (violations : List Diagnostic) (f : Findings) :
    (f.check violations).2.notes = f.notes := rfl

end Findings

/-! ## Checks that succeed -/

theorem countDiagnostics_eq_nil_iff {channel : String} {reference : Tally} {others : List Tally} :
    countDiagnostics channel (reference :: others) = [] ↔
      ∀ t ∈ others, t.count = reference.count := by
  simp [countDiagnostics]

end BoardBench
