import BoardBench.CommandLine
import BoardBench.Text.Wrap

/-!
# The help page

A request for help is answered with a page that lists the ports and the options. Nothing on it is
written down twice: the letters and names are those by which options are read, the defaults are
those of a command line without arguments, and the page shows the configuration file that the
environment names at that moment. So an option that is added to `OptionName.all` is read and listed.

The rows of a list are set in two columns, what is given and what it is for, and **the second column
begins at the same place in every row of a list** (`Row.length_head`): behind the widest entry of
the first. What does not fit beside the first column goes on below itself.
-/

set_option autoImplicit false

namespace BoardBench

namespace OptionName

/-- The name under which the value of a setting is shown. -/
def placeholder (s : Setting) : String :=
  String.ofList ((setting s).long.toList.map fun c => if c = '-' then '_' else c.toUpper)

/-- How an option is given. The names stand below each other, whether they have a letter or not. -/
def form (o : OptionName) : String :=
  (match o.short? with
    | some c => String.ofList ['-', c, ',', ' ']
    | none => "    ")
  ++ "--" ++ o.long ++
  match o with
  | setting s => " <" ++ placeholder s ++ ">"
  | _ => ""

end OptionName

namespace CommandLine

/-- The variable of the environment that names the configuration file. -/
def configVariable : String := "ARDEP_TESTER_CONFIG"

def usage : String :=
  "Usage: ardep-tester [OPTIONS] [PORT1] [PORT2]\n"

/-! ## Two columns -/

/-- The width of a page that is not shown on a terminal. -/
def pageWidth : Nat := 100

/-- A row of a list: how something is given, and what it is for. -/
structure Row where
  form : String
  purpose : String

def blanks (count : Nat) : String :=
  String.ofList (List.replicate count ' ')

/-- Where the second column of a list begins. -/
def secondColumn (rows : List Row) : Nat :=
  2 + (rows.map (·.form.length)).foldr max 0 + 2

/-- What stands in front of the second column. -/
def Row.head (column : Nat) (r : Row) : String :=
  let first := "  " ++ r.form
  first ++ blanks (column - first.length)

/-- A row whose second column begins at some place. -/
def Row.render (column : Nat) (r : Row) : String :=
  r.head column
    ++ Text.joined ("\n" ++ blanks column) (Text.wrap (pageWidth - column) r.purpose) ++ "\n"

def list (rows : List Row) : String :=
  Text.joined "" (rows.map (Row.render (secondColumn rows)))

theorem length_form_le {rows : List Row} {r : Row} (h : r ∈ rows) :
    r.form.length ≤ (rows.map (·.form.length)).foldr max 0 := by
  induction rows with
  | nil => exact absurd h List.not_mem_nil
  | cons row rows ih =>
    rcases List.mem_cons.1 h with rfl | h
    · exact Nat.le_max_left _ _
    · exact Nat.le_trans (ih h) (Nat.le_max_right _ _)

/-- **The rows of a list are aligned.** -/
theorem Row.length_head {rows : List Row} {r : Row} (h : r ∈ rows) :
    (r.head (secondColumn rows)).length = secondColumn rows := by
  have hform := length_form_le h
  have htwo : "  ".length = 2 := rfl
  simp only [Row.head, blanks, String.length_append, String.length_ofList, List.length_replicate,
    htwo]
  unfold secondColumn
  omega

/-! ## The page -/

/-- What a port is for. -/
def portRows : List Row :=
  let defaults : Options := {}
  [{ form := "[PORT1]"
     purpose := "Serial device of the first board [default: " ++ defaults.firstPort ++ "]" },
    { form := "[PORT2]"
      purpose := "Serial device of the second board [default: " ++ defaults.secondPort ++ "]" }]

/-- What an option is for. -/
def purpose (environment : Option String) : OptionName → String
  | .setting .config =>
    "Configuration file path (TOML format) [env: " ++ configVariable ++ "="
      ++ environment.getD "" ++ "]"
  | .setting .outputDir => "Directory the report is written to"
  | .setting .phaseTimeout => "Upper bound for a single phase, in seconds"
  | .switch .noIdleCheck => "Do not poll the boards for idle before each phase"
  | .switch .verbose => "Enable verbose output"
  | .help => "Print help"

def optionRows (environment : Option String) : List Row :=
  OptionName.all.map fun o => { form := o.form, purpose := purpose environment o }

/-- What a request for help is answered with. -/
def help (environment : Option String) : String :=
  "Hardware-in-the-loop test for ARDEP boards\n\n" ++ usage
    ++ "\nArguments:\n" ++ list portRows
    ++ "\nOptions:\n" ++ list (optionRows environment)

end CommandLine

end BoardBench
