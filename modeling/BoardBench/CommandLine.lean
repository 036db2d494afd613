import BoardBench.Config
import BoardBench.Text.Search

/-!
# The command line

At most two positional arguments name the ports. Options that take a value are given as
`--name value`, `--name=value`, `-n value`, `-nvalue` or `-n=value`; short options may share one
dash. A value of its own never starts with a dash, unless it is nothing but a dash. After `--`
everything is positional. No option may be given twice.

Arguments are taken in one after the other, and what one of them asks for is done before the next
one is looked at. So a mistake in front of a request for help counts, and **what comes behind the
request does not, whatever it is** (`parse_append_of_help`). Only a value waits: it is taken in with
the next argument that is no value, or at the end. The environment has its say when the arguments
have had theirs.
-/

set_option autoImplicit false

namespace BoardBench

/-- Options that take a value. -/
inductive Setting where
  | config
  | outputDir
  | phaseTimeout
deriving Repr, DecidableEq

/-- Options that take none. -/
inductive Switch where
  | noIdleCheck
  | verbose
deriving Repr, DecidableEq

/-- What a name on the command line stands for. -/
inductive OptionName where
  | setting (s : Setting)
  | switch (s : Switch)
  | help
deriving Repr, DecidableEq

/-- Why a command line is refused. -/
inductive UsageError where
  | unknownOption (given : String)
  | missingValue (s : Setting)
  | needlessValue (given : String)
  | emptyValue (s : Setting)
  | badNumber (s : Setting) (value : String) (reason : Text.NumberError)
  | repeated (o : OptionName)
  | surplus (argument : String)
deriving Repr, DecidableEq

/-- What a command line asks for, beyond help. -/
structure Options where
  firstPort : String := "/dev/ttyACM0"
  secondPort : String := "/dev/ttyACM1"
  config : Option String := none
  outputDir : Option String := none
  phaseTimeoutSeconds : Option Nat := none
  skipIdleCheck : Bool := false
  verbose : Bool := false
deriving Repr, DecidableEq

namespace OptionName

/-- All options, in the order in which they are listed. -/
def all : List OptionName :=
  [.setting .config, .setting .outputDir, .setting .phaseTimeout, .switch .noIdleCheck,
    .switch .verbose, .help]

/-- What stands behind two dashes. -/
def long : OptionName → String
  | .setting .config => "config"
  | .setting .outputDir => "output-dir"
  | .setting .phaseTimeout => "phase-timeout"
  | .switch .noIdleCheck => "no-idle-check"
  | .switch .verbose => "verbose"
  | .help => "help"

/-- What stands behind one dash. -/
def short? : OptionName → Option Char
  | .setting .config => some 'c'
  | .setting .outputDir => some 'o'
  | .setting .phaseTimeout => none
  | .switch .noIdleCheck => none
  | .switch .verbose => some 'v'
  | .help => some 'h'

def ofLong? (name : String) : Option OptionName :=
  all.find? (·.long == name)

def ofShort? (c : Char) : Option OptionName :=
  all.find? (·.short? == some c)

/-- Every option is found by its name, so that no two share one. -/
theorem ofLong?_long (o : OptionName) : ofLong? o.long = some o := by
  rcases o with (_ | _ | _) | (_ | _) | _ <;> decide

end OptionName

namespace CommandLine

def message : UsageError → String
  | .unknownOption given => "unexpected argument '" ++ given ++ "' found"
  | .missingValue s =>
    "a value is required for '--" ++ (OptionName.setting s).long ++ "' but none was supplied"
  | .needlessValue given => "unexpected value for '" ++ given ++ "'"
  | .emptyValue s => "the value for '--" ++ (OptionName.setting s).long ++ "' is empty"
  | .badNumber s value reason =>
    "invalid value '" ++ value ++ "' for '--" ++ (OptionName.setting s).long ++ "': "
      ++ reason.message
  | .repeated o => "the argument '--" ++ o.long ++ "' cannot be used multiple times"
  | .surplus argument => "unexpected argument '" ++ argument ++ "' found"

/-! ## Options -/

/-- A value that must not be empty. -/
def nonEmpty (s : Setting) (value : String) : Except UsageError String :=
  if value.isEmpty then .error (.emptyValue s) else .ok value

def addSetting (o : Options) (s : Setting) (value : String) : Except UsageError Options :=
  match s with
  | .config =>
    if o.config.isSome then .error (.repeated (.setting s))
    else do
      let path ← nonEmpty s value
      .ok { o with config := path }
  | .outputDir =>
    if o.outputDir.isSome then .error (.repeated (.setting s))
    else do
      let path ← nonEmpty s value
      .ok { o with outputDir := path }
  | .phaseTimeout =>
    if o.phaseTimeoutSeconds.isSome then .error (.repeated (.setting s))
    else
      match Text.readCount value.toList with
      | .ok seconds => .ok { o with phaseTimeoutSeconds := seconds.toNat }
      | .error reason => .error (.badNumber s value reason)

def addSwitch (o : Options) (s : Switch) : Except UsageError Options :=
  match s with
  | .noIdleCheck =>
    if o.skipIdleCheck then .error (.repeated (.switch s)) else .ok { o with skipIdleCheck := true }
  | .verbose =>
    if o.verbose then .error (.repeated (.switch s)) else .ok { o with verbose := true }

/-! ## One argument after the other -/

/-- How far the command line is taken in: the options that it came to, how many ports it named, and
a setting that is not taken in yet, with its value if that has come. -/
structure Intake where
  options : Options := {}
  ports : Nat := 0
  waiting : Option (Setting × Option String) := none

/-- Why no further argument is looked at. -/
inductive Halt where
  | help
  | refused (e : UsageError)
deriving Repr, DecidableEq

/-- The options after something was done to them. -/
def Intake.change (t : Intake) (o : Except UsageError Options) : Except Halt Intake :=
  match o with
  | .ok options => .ok { t with options, waiting := none }
  | .error e => .error (.refused e)

/-- Takes in the setting that waits. -/
def Intake.settle (t : Intake) : Except Halt Intake :=
  match t.waiting with
  | none => .ok t
  | some (s, none) => .error (.refused (.missingValue s))
  | some (s, some value) => t.change (addSetting t.options s value)

/-- A positional argument. -/
def Intake.port (t : Intake) (path : String) : Except Halt Intake :=
  match t.ports with
  | 0 => do
    let t ← t.settle
    .ok { t with options := { t.options with firstPort := path }, ports := 1 }
  | 1 => do
    let t ← t.settle
    .ok { t with options := { t.options with secondPort := path }, ports := 2 }
  | _ => .error (.refused (.surplus path))

/-- An option, with the value that is attached to it, if there is one. -/
def Intake.option (t : Intake) (o : OptionName) (value? : Option String) : Except Halt Intake := do
  let t ← t.settle
  match o, value? with
  | .setting s, some value => t.change (addSetting t.options s value)
  | .setting s, none => .ok { t with waiting := some (s, none) }
  | .switch s, _ => t.change (addSwitch t.options s)
  | .help, _ => .error .help

/-- A value without the equals sign that may set it off. -/
def unset : List Char → List Char
  | '=' :: cs => cs
  | cs => cs

/-- What stands behind one dash: options up to the first that takes a value, which is the rest. -/
def Intake.cluster (t : Intake) : List Char → Except Halt Intake
  | [] => .ok t
  | c :: cs =>
    match OptionName.ofShort? c with
    | none => .error (.refused (.unknownOption (String.ofList ['-', c])))
    | some (.setting s) =>
      t.option (.setting s) (if cs.isEmpty then none else some (String.ofList (unset cs)))
    | some o => do
      let t ← t.option o none
      t.cluster cs

/-- What stands behind two dashes. -/
def Intake.word (t : Intake) (body : List Char) : Except Halt Intake :=
  let name := String.ofList (body.takeWhile (· != '='))
  let value? := (body.dropWhile (· != '=')).tail?.map String.ofList
  match OptionName.ofLong? name, value? with
  | none, _ => .error (.refused (.unknownOption ("--" ++ name)))
  | some (.setting s), _ => t.option (.setting s) value?
  | some o, none => t.option o none
  | some _, some _ => .error (.refused (.needlessValue ("--" ++ name)))

/-- An argument in front of `--`: an option, the value that is waited for, or a port. -/
def Intake.argument (t : Intake) (argument : String) : Except Halt Intake :=
  match argument.toList, t.waiting with
  | '-' :: '-' :: body, _ => t.word body
  | '-' :: c :: cs, _ => t.cluster (c :: cs)
  | _, some (s, none) => .ok { t with waiting := some (s, some argument) }
  | _, _ => t.port argument

/-- Takes in the arguments, from left to right. -/
def Intake.arguments (t : Intake) : List String → Except Halt Intake
  | [] => t.settle
  | argument :: rest =>
    if argument = "--" then do
      let t ← rest.foldlM Intake.port t
      t.settle
    else do
      let t ← t.argument argument
      t.arguments rest

/-- What a whole command line asks for. -/
inductive Request where
  | help
  | run (o : Options)
deriving Repr, DecidableEq

/-- The environment names the configuration file if the arguments do not. -/
def withEnvironment (environment : Option String) (o : Options) : Except UsageError Request :=
  match o.config, environment with
  | none, some path => do
    let path ← nonEmpty .config path
    .ok (.run { o with config := path })
  | _, _ => .ok (.run o)

def parse (environment : Option String) (arguments : List String) : Except UsageError Request :=
  match Intake.arguments {} arguments with
  | .ok t => withEnvironment environment t.options
  | .error .help => .ok .help
  | .error (.refused e) => .error e

/-! ## Requests for help -/

theorem withEnvironment_ne_help (environment : Option String) (o : Options) :
    withEnvironment environment o ≠ .ok .help := by
  unfold withEnvironment nonEmpty
  split
  · split <;> nofun
  · nofun

theorem parse_eq_help_iff {environment : Option String} {arguments : List String} :
    parse environment arguments = .ok .help ↔ Intake.arguments {} arguments = .error .help := by
  unfold parse
  split
  · rename_i t ht
    exact iff_of_false (withEnvironment_ne_help environment t.options) (by simp [ht])
  · rename_i ht
    exact iff_of_true rfl ht
  · rename_i e ht
    exact iff_of_false nofun (by simp [ht])

namespace Intake

/-- Taking in the value that waits is no request for help. -/
theorem settle_ne_help (t : Intake) : t.settle ≠ .error .help := by
  unfold settle change
  split
  · nofun
  · nofun
  · split <;> nofun

theorem settle_then_ne_help (t : Intake) (f : Intake → Intake) :
    (do let t ← t.settle; .ok (f t)) ≠ (.error .help : Except Halt Intake) := by
  cases h : t.settle with
  | ok t => nofun
  | error e =>
    intro heq
    exact t.settle_ne_help (h.trans heq)

/-- Nor is taking in a port. -/
theorem port_ne_help (t : Intake) (path : String) : t.port path ≠ .error .help := by
  unfold port
  split
  · exact t.settle_then_ne_help _
  · exact t.settle_then_ne_help _
  · nofun

theorem ports_ne_help (paths : List String) (t : Intake) :
    paths.foldlM port t ≠ .error .help := by
  induction paths generalizing t with
  | nil => nofun
  | cons path paths ih =>
    rw [List.foldlM_cons]
    cases h : t.port path with
    | ok t => exact ih t
    | error e =>
      have hport := t.port_ne_help path
      rw [h] at hport
      exact hport

/-- The walk along the arguments ends where help is asked for. -/
theorem arguments_append_of_help {t : Intake} {front : List String}
    (h : t.arguments front = .error .help) (rest : List String) :
    t.arguments (front ++ rest) = .error .help := by
  induction front generalizing t with
  | nil => exact absurd h t.settle_ne_help
  | cons argument front ih =>
    rw [List.cons_append]
    unfold arguments at h ⊢
    split
    · rename_i hports
      -- behind a double dash nothing asks for help
      rw [if_pos hports] at h
      cases hall : front.foldlM port t with
      | ok t =>
        rw [hall] at h
        exact absurd h t.settle_ne_help
      | error e =>
        rw [hall] at h
        exact absurd (hall.trans h) (ports_ne_help front t)
    · rename_i hports
      rw [if_neg hports] at h
      cases hnext : t.argument argument with
      | ok t =>
        rw [hnext] at h
        exact ih h
      | error e =>
        rw [hnext] at h
        exact h

end Intake

/-- **A request for help is answered on the spot**: neither what follows it nor the environment
changes that. -/
theorem parse_append_of_help {environment : Option String} {front : List String}
    (h : parse environment front = .ok .help) (environment' : Option String) (rest : List String) :
    parse environment' (front ++ rest) = .ok .help :=
  parse_eq_help_iff.2 (Intake.arguments_append_of_help (parse_eq_help_iff.1 h) rest)

example : parse none ["-vh", "--nope"] = .ok .help ∧
    parse none ["--config", "--help"] = .error (.missingValue .config) :=
  ⟨rfl, rfl⟩

end CommandLine

/-! ## Options over settings -/

/-- The greatest number of milliseconds that a phase may take. -/
def Options.longestMs : Nat := UInt64.size - 1

def Options.override (o : Options) (c : Config) : Config :=
  { c with
    report := { outputDir := o.outputDir.getD c.report.outputDir }
    phase := { c.phase with
      timeoutMs := match o.phaseTimeoutSeconds with
        | some seconds => min (seconds * 1000) longestMs
        | none => c.phase.timeoutMs }
    idle := { c.idle with enabled := c.idle.enabled && !o.skipIdleCheck } }

end BoardBench
