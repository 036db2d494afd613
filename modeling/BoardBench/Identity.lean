import BoardBench.Event

/-!
# Identities

Both boards tell who they are: each reports one event with its id. A log identifies the boards if
it holds exactly two such events, one from each role; otherwise the error says what is wrong, of
both roles where both are.

The number of id events is looked at before anybody asks who they are from. So the error that lists
the events comes first, and that of the roles is only ever about two events.
-/

set_option autoImplicit false

namespace BoardBench

/-- What is wrong with the id events of one role. -/
inductive RoleProblem where
  | missing (role : Role)
  | duplicate (role : Role) (count : Nat)
deriving Repr, DecidableEq

def RoleProblem.message : RoleProblem → String
  | .missing role => role.tag ++ " lookup failed: no id message"
  | .duplicate role count =>
    role.tag ++ " lookup failed: " ++ Text.decimal count ++ " id messages, expected 1"

/-- Why a log does not identify the boards: there are not two id events, or they are not one from
each role. -/
inductive IdentityError where
  | messageCount (found : List Event)
  | roles (problems : List RoleProblem)
deriving Repr, DecidableEq

def IdentityError.message : IdentityError → String
  | .messageCount found =>
    "Error reading hardware information. Expected 2 messages. Got " ++ Text.decimal found.length
      ++ ": [" ++ Text.joined "; " (found.map Event.wire) ++ "]"
  | .roles problems =>
    "Hardware info lookup failed: " ++ Text.joined "; " (problems.map RoleProblem.message)

/-- The identities of both boards, with the log that they were read from. -/
structure Identity where
  log : List Event
  sut : Event
  tester : Event
deriving Repr, DecidableEq

namespace Identity

def startCommand : String := "hwInfo start"

def stopMessage : String := "hwInfo stop"

def marker : String := "id:"

/-- The id in the payload of an id event: what follows the marker at the front, or everything. -/
def idOf (e : Event) : String :=
  Text.withoutLead "id: " e.payload

def idEvents (log : List Event) : List Event :=
  log.filter (·.mentions marker)

/-- The only id event of a role, or what is wrong. -/
def single (role : Role) (ids : List Event) : Except RoleProblem Event :=
  match ids.filter (·.isFrom role) with
  | [] => .error (.missing role)
  | [e] => .ok e
  | many => .error (.duplicate role many.length)

def ofLog (log : List Event) : Except IdentityError Identity :=
  let ids := idEvents log
  if ids.length ≠ 2 then .error (.messageCount ids)
  else
    match single .sut ids, single .tester ids with
    | .ok sut, .ok tester => .ok { log, sut, tester }
    | .error p, .ok _ => .error (.roles [p])
    | .ok _, .error p => .error (.roles [p])
    | .error p, .error q => .error (.roles [p, q])

def sutId (i : Identity) : String :=
  idOf i.sut

def testerId (i : Identity) : String :=
  idOf i.tester

/-- The summary: both ids. -/
def summary (i : Identity) : String :=
  Text.joined "\n" ["SUT ID: " ++ i.sutId, "Tester ID: " ++ i.testerId]

/-- The transcript: the whole log. -/
def transcript (i : Identity) : String :=
  Text.joined "\n" ("Hardware Information Log:" :: i.log.map ("  " ++ ·.wire))

end Identity

end BoardBench
