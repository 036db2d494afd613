import BoardBench.Text.Decimal
import BoardBench.Text.Search

/-!
# Events

An event is one thing a device reports on its serial console: when (on the device's own clock), how
grave, which device, and what. Its *wire form* is the line that the device prints for it.

Two devices matter to the bench, and they are recognised by their tags: the board under test and
the board that tests it.
-/

set_option autoImplicit false

namespace BoardBench

/-- How grave an event is. A token that is none of the known ones is kept as it is. -/
inductive Level where
  | err
  | wrn
  | inf
  | dbg
  | other (token : String)
deriving Repr, DecidableEq

def Level.token : Level → String
  | .err => "err"
  | .wrn => "wrn"
  | .inf => "inf"
  | .dbg => "dbg"
  | .other token => token

def Level.ofToken (token : String) : Level :=
  if token = "err" then .err
  else if token = "wrn" then .wrn
  else if token = "inf" then .inf
  else if token = "dbg" then .dbg
  else .other token

/-- The level is one of the four that devices are known to use. -/
def Level.isKnown : Level → Bool
  | .other _ => false
  | _ => true

/-- The parts that the two boards play. -/
inductive Role where
  | sut
  | tester
deriving Repr, DecidableEq

def Role.tag : Role → String
  | .sut => "sut"
  | .tester => "tester"

/-- One report of a device. -/
structure Event where
  timeMs : UInt64
  level : Level
  device : String
  payload : String
deriving Repr, DecidableEq

namespace Event

/-- The wire form: `[time] <level> device: payload`. -/
def wire (e : Event) : String :=
  "[" ++ Text.decimal e.timeMs.toNat ++ "] <" ++ e.level.token ++ "> " ++ e.device ++ ": "
    ++ e.payload

/-- The event comes from the device that plays this role. Tags are compared without regard to the
case of ASCII letters. -/
def isFrom (e : Event) (r : Role) : Bool :=
  Text.sameFolded e.device r.tag

def isError (e : Event) : Bool :=
  e.level == .err

/-- The payload contains `part`. -/
def mentions (e : Event) (part : String) : Bool :=
  Text.contains e.payload part

/-- The last character of the payload, which carries the datum of a UART or LIN frame. -/
def lastChar (e : Event) : Option Char :=
  e.payload.toList.getLast?

end Event

/-! ## Tokens and levels -/

@[simp] theorem Level.token_ofToken (token : String) : (Level.ofToken token).token = token := by
  simp only [Level.ofToken]
  split
  · simp_all [Level.token]
  · split
    · simp_all [Level.token]
    · split
      · simp_all [Level.token]
      · split <;> simp_all [Level.token]

/-- No event plays both roles. -/
theorem Event.not_isFrom_both {e : Event} (h : e.isFrom .sut = true) :
    e.isFrom .tester = false := by
  rw [Event.isFrom, Text.sameFolded_iff] at h
  rw [Event.isFrom, Text.sameFolded, h]
  decide

end BoardBench
