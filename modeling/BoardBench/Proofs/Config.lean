import BoardBench.CommandLine
import BoardBench.Config.Decode
import Mathlib

/-!
# Configurations — defaults are filled in, and then everything is checked

A configuration document is read as what its known keys say: `Config.keys` lists them, each with
the kind of its value and its default, and `Config.Describes` relates a document to the
configuration that has under every key what the document says, or the default if it says nothing.
**The decoder finds the configuration that is described, if all known keys that are there are well
typed** (`Config.ofEntries?_eq_some_iff`, `Config.exists_describes`). No key has an influence on
what another means, so a section that is missing is the same as one in which nothing is said.

What can be wrong with a configuration is listed in `Config.violations`, all of it; the first is
reported. Options of the command line are laid over a configuration that has passed, and they add no
violation.

The decoder goes through the sections one by one, with a function for each. The description of what
it does is a table: one list of keys, each with its kind, its default and the field that it sets.
The two are brought together section by section, and always by the same two equivalences, for a
field that may be missing and for a section that may be. Another key is then an entry in the table
and a line in the proof for its section.

`Describes` quantifies over all keys, so that a configuration is determined by it
(`exists_describes` has the other half). A relation is used because a document need not describe
anything: a value of the wrong kind under a known key is an error, whatever the others say.
-/

set_option autoImplicit false

namespace BoardBench

namespace Config

/-! ## What a document says -/

/-- The value of a field of a section: under its key, or at its position in an array. -/
def item : Toml.Value → Nat → String → Option Toml.Value
  | .table entries, _, name => Toml.lookup name entries
  | .array items, position, _ => items[position]?
  | _, _, _ => none

/-- What can stand for a section. A date is one without fields. -/
def IsSection : Toml.Value → Prop
  | .table _ | .array _ | .date _ => True
  | _ => False

/-- The kinds of values in a configuration. -/
inductive Kind where
  | word (bits : Nat)
  | flag
  | text
  | bounds
deriving Repr, DecidableEq

/-- What a value of a kind says. -/
abbrev Kind.Meaning : Kind → Type
  | .word _ => Nat
  | .flag => Bool
  | .text => String
  | .bounds => Bounds

/-- A value is of a kind and says this. Bounds need both ends. -/
def Kind.Reads : (k : Kind) → Toml.Value → k.Meaning → Prop
  | .word bits, v, n => v = .integer (n : Nat) ∧ n < 2 ^ bits
  | .flag, v, b => v = .boolean b
  | .text, v, s => v = .text s
  | .bounds, v, b =>
    item v 0 "min_ms" = some (.integer b.min) ∧ item v 1 "max_ms" = some (.integer b.max)

/-- A known key: its section, its position and name there, the kind of its value, what it means if
it is missing, and what a configuration has for it. -/
structure Key where
  home : String
  position : Nat
  name : String
  kind : Kind
  default : Option kind.Meaning
  setting : Config → Option kind.Meaning

/-- The known keys, by section. -/
def keys : List Key := [
  ⟨"serial", 0, "baud_rate", .word 32, some (115200 : Nat), fun c => some c.serial.baudRate⟩,
  ⟨"serial", 1, "read_timeout_ms", .word 64, some (10000 : Nat),
    fun c => some c.serial.readTimeoutMs⟩,
  ⟨"phase", 0, "timeout_ms", .word 64, some (30000 : Nat), fun c => some c.phase.timeoutMs⟩,
  ⟨"phase", 1, "channel_capacity", .word 64, some (256 : Nat),
    fun c => some c.phase.channelCapacity⟩,
  ⟨"idle", 0, "enabled", .flag, some true, fun c => some c.idle.enabled⟩,
  ⟨"idle", 1, "max_attempts", .word 32, some (10 : Nat), fun c => some c.idle.maxAttempts⟩,
  ⟨"idle", 2, "retry_delay_ms", .word 64, some (1000 : Nat), fun c => some c.idle.retryDelayMs⟩,
  ⟨"timing", 0, "gpio", .bounds, some (⟨17, 23⟩ : Bounds), fun c => some c.timing.gpio⟩,
  ⟨"timing", 1, "uart", .bounds, none, fun c => c.timing.uart⟩,
  ⟨"timing", 2, "can", .bounds, some (⟨40, 60⟩ : Bounds), fun c => some c.timing.can⟩,
  ⟨"timing", 3, "lin", .bounds, some (⟨90, 110⟩ : Bounds), fun c => some c.timing.lin⟩,
  ⟨"report", 0, "output_dir", .text, some ".", fun c => some c.report.outputDir⟩]

def homes : List String :=
  ["serial", "phase", "idle", "timing", "report"]

variable {entries : List (String × Toml.Value)} {c : Config}

/-- What the entries of a document say in a section. -/
def said (entries : List (String × Toml.Value)) (home : String) : Fields :=
  fun position name => (Toml.lookup home entries).bind (item · position name)

/-- What stands for a section is one, if anything does. -/
def Proper (entries : List (String × Toml.Value)) (home : String) : Prop :=
  ∀ v, Toml.lookup home entries = some v → IsSection v

/-- All sections that are there are sections, and all known keys that are there have values of their
kinds. -/
structure WellTyped (entries : List (String × Toml.Value)) : Prop where
  sections : ∀ home ∈ homes, Proper entries home
  values : ∀ k ∈ keys, ∀ v, said entries k.home k.position k.name = some v → ∃ x, k.kind.Reads v x

/-- What is meant by a value that may be missing. -/
def Means (k : Kind) (v? : Option Toml.Value) (default x : Option k.Meaning) : Prop :=
  match v? with
  | none => x = default
  | some v => ∃ y, x = some y ∧ k.Reads v y

/-- A configuration has under every known key what the entries say there, and the default if they
say nothing. -/
def Describes (entries : List (String × Toml.Value)) (c : Config) : Prop :=
  ∀ k ∈ keys, Means k.kind (said entries k.home k.position k.name) k.default (k.setting c)

/-! ## Values -/

theorem fields?_eq_some_iff {v : Toml.Value} {fields : Fields} :
    fields? v = some fields ↔ IsSection v ∧ fields = item v := by
  cases v with
  | table entries =>
    simp only [fields?, Option.some.injEq, IsSection, true_and]
    exact eq_comm
  | array items =>
    simp only [fields?, Option.some.injEq, IsSection, true_and]
    exact eq_comm
  | date written =>
    simp only [fields?, Option.some.injEq, IsSection, true_and]
    exact eq_comm
  | _ => simp [fields?, IsSection]

theorem decodeWord_eq_some_iff {bits n : Nat} {v : Toml.Value} :
    decodeWord bits v = some n ↔ (Kind.word bits).Reads v n := by
  unfold decodeWord Kind.Reads
  rw [Nat.one_shiftLeft]
  split
  · rename_i m
    split
    · rename_i hm
      obtain ⟨l, rfl⟩ := Int.eq_ofNat_of_zero_le hm.1
      rw [Int.toNat_natCast] at hm ⊢
      simp only [Option.some.injEq, Toml.Value.integer.injEq, Int.natCast_inj]
      constructor
      · intro heq
        exact ⟨heq, heq ▸ hm.2⟩
      · intro h
        exact h.1
    · rename_i hm
      simp only [reduceCtorEq, Toml.Value.integer.injEq, false_iff, not_and, Nat.not_lt]
      intro heq
      subst heq
      simpa using hm
  · rename_i hnot
    simp only [reduceCtorEq, false_iff, not_and]
    intro hv
    exact absurd hv (hnot _)

theorem decodeInteger_eq_some_iff {n : Int} {v : Toml.Value} :
    decodeInteger v = some n ↔ v = .integer n := by
  cases v <;> simp [decodeInteger]

theorem decodeFlag_eq_some_iff {b : Bool} {v : Toml.Value} :
    decodeFlag v = some b ↔ Kind.flag.Reads v b := by
  cases v <;> simp [decodeFlag, Kind.Reads]

theorem decodeText_eq_some_iff {s : String} {v : Toml.Value} :
    decodeText v = some s ↔ Kind.text.Reads v s := by
  cases v <;> simp [decodeText, Kind.Reads]

theorem required_eq_some_iff {fields : Fields} {position : Nat} {name : String} {n : Int} :
    required fields position name decodeInteger = some n ↔
      fields position name = some (.integer n) := by
  simp [required, Option.bind_eq_some_iff, decodeInteger_eq_some_iff]

/-- What is no section has no fields. -/
theorem isSection_of_item {v w : Toml.Value} {position : Nat} {name : String}
    (h : item v position name = some w) : IsSection v := by
  cases v with
  | table entries => trivial
  | array items => trivial
  | date written => trivial
  | _ => cases h

theorem decodeBounds_eq_some_iff {b : Bounds} {v : Toml.Value} :
    decodeBounds v = some b ↔ Kind.bounds.Reads v b := by
  simp only [decodeBounds, Option.bind_eq_bind, Option.bind_eq_some_iff, fields?_eq_some_iff,
    required_eq_some_iff, Option.some.injEq, Kind.Reads]
  constructor
  · intro ⟨fields, ⟨_, hfields⟩, min, hmin, max, hmax, hb⟩
    rw [← hb, ← hfields]
    exact ⟨hmin, hmax⟩
  · intro ⟨hmin, hmax⟩
    exact ⟨item v, ⟨isSection_of_item hmin, rfl⟩, b.min, hmin, b.max, hmax, rfl⟩

/-! ## Fields -/

/-- **A field that may be missing is decoded as what it means**, if its values are. -/
theorem optional_eq_some_iff {k : Kind} {decode : Toml.Value → Option k.Meaning} {fields : Fields}
    {position : Nat} {name : String} {default x : k.Meaning}
    (hdecode : ∀ v y, decode v = some y ↔ k.Reads v y) :
    optional fields position name decode default = some x ↔
      Means k (fields position name) (some default) (some x) := by
  cases hfield : fields position name with
  | none =>
    simp only [optional, Means, hfield, Option.some.injEq]
    exact eq_comm
  | some v => simp [optional, Means, hfield, hdecode]

/-- There is no default for what need not be there. -/
theorem optional_some_eq_some_iff {k : Kind} {decode : Toml.Value → Option k.Meaning}
    {fields : Fields} {position : Nat} {name : String} {x : Option k.Meaning}
    (hdecode : ∀ v y, decode v = some y ↔ k.Reads v y) :
    optional fields position name (some <$> decode ·) none = some x ↔
      Means k (fields position name) none x := by
  cases hfield : fields position name with
  | none =>
    simp only [optional, Means, hfield, Option.some.injEq]
    exact eq_comm
  | some v =>
    simp only [optional, Means, hfield, Option.map_eq_map, Option.map_eq_some_iff, hdecode]
    constructor
    · intro ⟨y, hy, hx⟩
      exact ⟨y, hx.symm, hy⟩
    · intro ⟨y, hx, hy⟩
      exact ⟨y, hy, hx.symm⟩

/-- What is well typed means something. -/
theorem exists_means {k : Kind} {v? : Option Toml.Value} (default : k.Meaning)
    (h : ∀ v, v? = some v → ∃ y, k.Reads v y) : ∃ x, Means k v? (some default) (some x) := by
  cases v? with
  | none => exact ⟨default, rfl⟩
  | some v =>
    obtain ⟨y, hy⟩ := h v rfl
    exact ⟨y, y, rfl, hy⟩

theorem exists_means_none {k : Kind} {v? : Option Toml.Value}
    (h : ∀ v, v? = some v → ∃ y, k.Reads v y) : ∃ x, Means k v? none x := by
  cases v? with
  | none => exact ⟨none, rfl⟩
  | some v =>
    obtain ⟨y, hy⟩ := h v rfl
    exact ⟨some y, y, rfl, hy⟩

/-! ## Sections -/

/-- **A section that is missing is the same as one in which nothing is said.** `P` is what the
decoder of the section finds in its fields. -/
theorem optional_section_eq_some_iff {α : Type} {decode : Toml.Value → Option α}
    {P : Fields → α → Prop} {position : Nat} {home : String} {default x : α}
    (hdecode : ∀ v x, decode v = some x ↔ ∃ fields, fields? v = some fields ∧ P fields x)
    (hdefault : ∀ x, P (fun _ _ => none) x ↔ x = default) :
    optional (fun _ key => Toml.lookup key entries) position home decode default = some x ↔
      Proper entries home ∧ P (said entries home) x := by
  unfold Proper
  cases hlookup : Toml.lookup home entries with
  | none =>
    have hsaid : said entries home = fun _ _ => none := by
      funext position name
      rw [said, hlookup, Option.bind_none]
    simp only [optional, hlookup, hsaid, hdefault, Option.some.injEq, reduceCtorEq, false_implies,
      implies_true, true_and]
    exact eq_comm
  | some v =>
    have hsaid : said entries home = item v := by
      funext position name
      rw [said, hlookup, Option.bind_some]
    simp only [optional, hlookup, hsaid, hdecode, fields?_eq_some_iff, Option.some.injEq,
      forall_eq']
    constructor
    · intro ⟨fields, ⟨hsection, hfields⟩, hx⟩
      rw [hfields] at hx
      exact ⟨hsection, hx⟩
    · intro ⟨hsection, hx⟩
      exact ⟨item v, ⟨hsection, rfl⟩, hx⟩

theorem serial_eq_some_iff {x : SerialSettings} :
    optional (fun _ key => Toml.lookup key entries) 0 "serial" decodeSerial {} = some x ↔
      Proper entries "serial" ∧
        Means (.word 32) (said entries "serial" 0 "baud_rate") (some 115200) (some x.baudRate) ∧
        Means (.word 64) (said entries "serial" 1 "read_timeout_ms") (some 10000)
          (some x.readTimeoutMs) := by
  apply optional_section_eq_some_iff (P := fun fields (x : SerialSettings) =>
    Means (.word 32) (fields 0 "baud_rate") (some 115200) (some x.baudRate) ∧
      Means (.word 64) (fields 1 "read_timeout_ms") (some 10000) (some x.readTimeoutMs))
  · intro v x
    simp only [decodeSerial, Option.bind_eq_bind, Option.bind_eq_some_iff,
      optional_eq_some_iff (k := .word 32) fun _ _ => decodeWord_eq_some_iff,
      optional_eq_some_iff (k := .word 64) fun _ _ => decodeWord_eq_some_iff, Option.some.injEq]
    constructor
    · intro ⟨fields, hfields, a, ha, b, hb, hx⟩
      rw [← hx]
      exact ⟨fields, hfields, ha, hb⟩
    · intro ⟨fields, hfields, ha, hb⟩
      exact ⟨fields, hfields, _, ha, _, hb, rfl⟩
  · intro x
    cases x
    simp [Means]

theorem phase_eq_some_iff {x : PhaseSettings} :
    optional (fun _ key => Toml.lookup key entries) 1 "phase" decodePhase {} = some x ↔
      Proper entries "phase" ∧
        Means (.word 64) (said entries "phase" 0 "timeout_ms") (some 30000) (some x.timeoutMs) ∧
        Means (.word 64) (said entries "phase" 1 "channel_capacity") (some 256)
          (some x.channelCapacity) := by
  apply optional_section_eq_some_iff (P := fun fields (x : PhaseSettings) =>
    Means (.word 64) (fields 0 "timeout_ms") (some 30000) (some x.timeoutMs) ∧
      Means (.word 64) (fields 1 "channel_capacity") (some 256) (some x.channelCapacity))
  · intro v x
    simp only [decodePhase, Option.bind_eq_bind, Option.bind_eq_some_iff,
      optional_eq_some_iff (k := .word 64) fun _ _ => decodeWord_eq_some_iff, Option.some.injEq]
    constructor
    · intro ⟨fields, hfields, a, ha, b, hb, hx⟩
      rw [← hx]
      exact ⟨fields, hfields, ha, hb⟩
    · intro ⟨fields, hfields, ha, hb⟩
      exact ⟨fields, hfields, _, ha, _, hb, rfl⟩
  · intro x
    cases x
    simp [Means]

theorem idle_eq_some_iff {x : IdleSettings} :
    optional (fun _ key => Toml.lookup key entries) 2 "idle" decodeIdle {} = some x ↔
      Proper entries "idle" ∧
        Means .flag (said entries "idle" 0 "enabled") (some true) (some x.enabled) ∧
        Means (.word 32) (said entries "idle" 1 "max_attempts") (some 10) (some x.maxAttempts) ∧
        Means (.word 64) (said entries "idle" 2 "retry_delay_ms") (some 1000)
          (some x.retryDelayMs) := by
  apply optional_section_eq_some_iff (P := fun fields (x : IdleSettings) =>
    Means .flag (fields 0 "enabled") (some true) (some x.enabled) ∧
      Means (.word 32) (fields 1 "max_attempts") (some 10) (some x.maxAttempts) ∧
      Means (.word 64) (fields 2 "retry_delay_ms") (some 1000) (some x.retryDelayMs))
  · intro v x
    simp only [decodeIdle, Option.bind_eq_bind, Option.bind_eq_some_iff,
      optional_eq_some_iff (k := .flag) fun _ _ => decodeFlag_eq_some_iff,
      optional_eq_some_iff (k := .word 32) fun _ _ => decodeWord_eq_some_iff,
      optional_eq_some_iff (k := .word 64) fun _ _ => decodeWord_eq_some_iff, Option.some.injEq]
    constructor
    · intro ⟨fields, hfields, a, ha, b, hb, d, hd, hx⟩
      rw [← hx]
      exact ⟨fields, hfields, ha, hb, hd⟩
    · intro ⟨fields, hfields, ha, hb, hd⟩
      exact ⟨fields, hfields, _, ha, _, hb, _, hd, rfl⟩
  · intro x
    cases x
    simp [Means]

theorem timing_eq_some_iff {x : TimingSettings} :
    optional (fun _ key => Toml.lookup key entries) 3 "timing" decodeTiming {} = some x ↔
      Proper entries "timing" ∧
        Means .bounds (said entries "timing" 0 "gpio") (some ⟨17, 23⟩) (some x.gpio) ∧
        Means .bounds (said entries "timing" 1 "uart") none x.uart ∧
        Means .bounds (said entries "timing" 2 "can") (some ⟨40, 60⟩) (some x.can) ∧
        Means .bounds (said entries "timing" 3 "lin") (some ⟨90, 110⟩) (some x.lin) := by
  apply optional_section_eq_some_iff (P := fun fields (x : TimingSettings) =>
    Means .bounds (fields 0 "gpio") (some ⟨17, 23⟩) (some x.gpio) ∧
      Means .bounds (fields 1 "uart") none x.uart ∧
      Means .bounds (fields 2 "can") (some ⟨40, 60⟩) (some x.can) ∧
      Means .bounds (fields 3 "lin") (some ⟨90, 110⟩) (some x.lin))
  · intro v x
    simp only [decodeTiming, Option.bind_eq_bind, Option.bind_eq_some_iff,
      optional_eq_some_iff (k := .bounds) fun _ _ => decodeBounds_eq_some_iff,
      optional_some_eq_some_iff (k := .bounds) fun _ _ => decodeBounds_eq_some_iff,
      Option.some.injEq]
    constructor
    · intro ⟨fields, hfields, a, ha, b, hb, d, hd, e, he, hx⟩
      rw [← hx]
      exact ⟨fields, hfields, ha, hb, hd, he⟩
    · intro ⟨fields, hfields, ha, hb, hd, he⟩
      exact ⟨fields, hfields, _, ha, _, hb, _, hd, _, he, rfl⟩
  · intro x
    cases x
    simp [Means]

theorem report_eq_some_iff {x : ReportSettings} :
    optional (fun _ key => Toml.lookup key entries) 4 "report" decodeReport {} = some x ↔
      Proper entries "report" ∧
        Means .text (said entries "report" 0 "output_dir") (some ".") (some x.outputDir) := by
  apply optional_section_eq_some_iff (P := fun fields (x : ReportSettings) =>
    Means .text (fields 0 "output_dir") (some ".") (some x.outputDir))
  · intro v x
    simp only [decodeReport, Option.bind_eq_bind, Option.bind_eq_some_iff,
      optional_eq_some_iff (k := .text) fun _ _ => decodeText_eq_some_iff, Option.some.injEq]
    constructor
    · intro ⟨fields, hfields, a, ha, hx⟩
      rw [← hx]
      exact ⟨fields, hfields, ha⟩
    · intro ⟨fields, hfields, ha⟩
      exact ⟨fields, hfields, _, ha, rfl⟩
  · intro x
    cases x
    simp [Means]

/-! ## Documents -/

/-- **The decoder finds the configuration that the entries describe, and no other.** -/
theorem ofEntries?_eq_some_iff :
    ofEntries? entries = some c ↔ (∀ home ∈ homes, Proper entries home) ∧ Describes entries c := by
  simp only [ofEntries?, Option.bind_eq_bind, Option.bind_eq_some_iff, serial_eq_some_iff,
    phase_eq_some_iff, idle_eq_some_iff, timing_eq_some_iff, report_eq_some_iff,
    Option.some.injEq, Describes, keys, homes, List.forall_mem_cons, List.not_mem_nil,
    false_implies, implies_true, and_true]
  constructor
  · rintro ⟨serial, ⟨hserial, hbaud, hread⟩, phase, ⟨hphase, htimeout, hcapacity⟩,
      idle, ⟨hidle, henabled, hattempts, hdelay⟩, timing, ⟨htiming, hgpio, huart, hcan, hlin⟩,
      report, ⟨hreport, houtput⟩, hc⟩
    rw [← hc]
    exact ⟨⟨hserial, hphase, hidle, htiming, hreport⟩, hbaud, hread, htimeout, hcapacity,
      henabled, hattempts, hdelay, hgpio, huart, hcan, hlin, houtput⟩
  · rintro ⟨⟨hserial, hphase, hidle, htiming, hreport⟩, hbaud, hread, htimeout, hcapacity,
      henabled, hattempts, hdelay, hgpio, huart, hcan, hlin, houtput⟩
    exact ⟨c.serial, ⟨hserial, hbaud, hread⟩, c.phase, ⟨hphase, htimeout, hcapacity⟩,
      c.idle, ⟨hidle, henabled, hattempts, hdelay⟩, c.timing, ⟨htiming, hgpio, huart, hcan, hlin⟩,
      c.report, ⟨hreport, houtput⟩, rfl⟩

/-- Well-typed entries describe a configuration. -/
theorem WellTyped.exists_describes (h : WellTyped entries) : ∃ c, Describes entries c := by
  have hkeys := h.values
  simp only [keys, List.forall_mem_cons, List.not_mem_nil, false_implies, implies_true,
    and_true] at hkeys
  obtain ⟨hbaud, hread, htimeout, hcapacity, henabled, hattempts, hdelay, hgpio, huart, hcan, hlin,
    houtput⟩ := hkeys
  obtain ⟨baudRate, hbaud⟩ := exists_means (k := .word 32) 115200 hbaud
  obtain ⟨readTimeoutMs, hread⟩ := exists_means (k := .word 64) 10000 hread
  obtain ⟨timeoutMs, htimeout⟩ := exists_means (k := .word 64) 30000 htimeout
  obtain ⟨channelCapacity, hcapacity⟩ := exists_means (k := .word 64) 256 hcapacity
  obtain ⟨enabled, henabled⟩ := exists_means (k := .flag) true henabled
  obtain ⟨maxAttempts, hattempts⟩ := exists_means (k := .word 32) 10 hattempts
  obtain ⟨retryDelayMs, hdelay⟩ := exists_means (k := .word 64) 1000 hdelay
  obtain ⟨gpio, hgpio⟩ := exists_means (k := .bounds) ⟨17, 23⟩ hgpio
  obtain ⟨uart, huart⟩ := exists_means_none huart
  obtain ⟨can, hcan⟩ := exists_means (k := .bounds) ⟨40, 60⟩ hcan
  obtain ⟨lin, hlin⟩ := exists_means (k := .bounds) ⟨90, 110⟩ hlin
  obtain ⟨outputDir, houtput⟩ := exists_means (k := .text) "." houtput
  refine ⟨⟨⟨baudRate, readTimeoutMs⟩, ⟨timeoutMs, channelCapacity⟩,
    ⟨enabled, maxAttempts, retryDelayMs⟩, ⟨gpio, uart, can, lin⟩, ⟨outputDir⟩⟩, ?_⟩
  simp only [Describes, keys, List.forall_mem_cons, List.not_mem_nil, false_implies, implies_true,
    and_true]
  exact ⟨hbaud, hread, htimeout, hcapacity, henabled, hattempts, hdelay, hgpio, huart, hcan, hlin,
    houtput⟩

/-- What is described is well typed. -/
theorem Describes.reads (h : Describes entries c) :
    ∀ k ∈ keys, ∀ v, said entries k.home k.position k.name = some v → ∃ x, k.kind.Reads v x := by
  intro k hk v hv
  have hmeans := h k hk
  rw [hv] at hmeans
  obtain ⟨x, -, hx⟩ := hmeans
  exact ⟨x, hx⟩

/-! ## Violations -/

/-- What is wrong with the bounds of a subsystem, if it has any. -/
def reversed (t : TimingSettings) (s : Subsystem) : Option ConfigError :=
  match t.bounds? s with
  | some b => if b.max < b.min then some (.reversedBounds s b) else none
  | none => none

/-- All that is wrong with a configuration. -/
def violations (c : Config) : List ConfigError :=
  (if c.idle.maxAttempts < 1 then [.noAttempts] else []) ++
    (if c.phase.channelCapacity < 1 then [.noCapacity] else []) ++
    [Subsystem.gpio, .uart, .can, .lin].filterMap (reversed c.timing)

theorem reversed_eq_none_iff {t : TimingSettings} {s : Subsystem} :
    reversed t s = none ↔ ∀ b, t.bounds? s = some b → b.min ≤ b.max := by
  unfold reversed
  cases t.bounds? s with
  | none => simp
  | some b => simp

theorem reversedBounds?_eq_head? (t : TimingSettings) (ss : List Subsystem) :
    reversedBounds? t ss = (ss.filterMap (reversed t)).head? := by
  induction ss with
  | nil => rfl
  | cons s rest ih =>
    rw [reversedBounds?, List.filterMap_cons, reversed]
    cases t.bounds? s with
    | none => exact ih
    | some b =>
      by_cases hproper : b.min ≤ b.max
      · have hnot : ¬ b.max < b.min := Int.not_lt.2 hproper
        simp [Bounds.isProper, hproper, hnot, ih]
      · have hlt : b.max < b.min := Int.not_le.1 hproper
        simp [Bounds.isProper, hproper, hlt]

/-- **The first of all violations is reported.** -/
theorem violation?_eq_head? (c : Config) : c.violation? = (violations c).head? := by
  unfold violation? violations
  by_cases hattempts : c.idle.maxAttempts = 0
  · simp [hattempts]
  · have hsome : ¬ c.idle.maxAttempts < 1 := by omega
    rw [if_neg hattempts, if_neg hsome, List.nil_append]
    by_cases hcapacity : c.phase.channelCapacity = 0
    · simp [hcapacity]
    · have hroom : ¬ c.phase.channelCapacity < 1 := by omega
      rw [if_neg hcapacity, if_neg hroom, List.nil_append]
      exact reversedBounds?_eq_head? _ _

theorem violations_eq_nil_iff : violations c = [] ↔
    1 ≤ c.idle.maxAttempts ∧ 1 ≤ c.phase.channelCapacity ∧
      c.timing.gpio.min ≤ c.timing.gpio.max ∧
      (∀ b, c.timing.uart = some b → b.min ≤ b.max) ∧
      c.timing.can.min ≤ c.timing.can.max ∧ c.timing.lin.min ≤ c.timing.lin.max := by
  simp [violations, reversed_eq_none_iff, TimingSettings.bounds?, Nat.one_le_iff_ne_zero]

theorem validate_eq_ok_iff {c' : Config} : c.validate = .ok c' ↔ c' = c ∧ violations c = [] := by
  rw [validate, violation?_eq_head?]
  cases violations c with
  | nil => simp [eq_comm]
  | cons e rest => simp

theorem validate_eq_error_iff {e : ConfigError} :
    c.validate = .error e ↔ (violations c).head? = some e := by
  rw [validate, violation?_eq_head?]
  cases violations c with
  | nil => simp
  | cons e' rest => simp

/-! ## Loading -/

theorem ofToml_of_wellTyped {document : String} (hparse : Toml.parse document = some entries)
    (htyped : WellTyped entries) (hc : Describes entries c) : ofToml document = c.validate := by
  have hdecode : ofEntries? entries = some c :=
    ofEntries?_eq_some_iff.2 ⟨htyped.sections, hc⟩
  rw [ofToml, hparse, Option.bind_some, hdecode]

/-- **What is not well typed is rejected**, whatever else is said. -/
theorem ofToml_of_not_wellTyped {document : String}
    (h : ¬∃ entries, Toml.parse document = some entries ∧ WellTyped entries) :
    ofToml document = .error .invalid := by
  unfold ofToml
  cases hread : (Toml.parse document).bind ofEntries? with
  | none => rfl
  | some c =>
    obtain ⟨entries, hparse, hdecode⟩ := Option.bind_eq_some_iff.1 hread
    obtain ⟨hsections, hdescribes⟩ := ofEntries?_eq_some_iff.1 hdecode
    exact absurd ⟨entries, hparse, hsections, hdescribes.reads⟩ h

/-- **Options add no violation and take none away.** -/
theorem violations_override (o : Options) (c : Config) :
    violations (o.override c) = violations c :=
  rfl

/-- **Defaults are filled in, and then everything is checked.** If what a document says under known
keys is well typed, it describes one configuration: under every known key this has what the document
says there, and the default if it says nothing. The configuration is accepted exactly if its devices
are asked at least once, its queue has room, and no bounds are reversed; otherwise the first of its
violations is reported. A document that cannot be read or is not well typed is rejected before. The
options of the command line are laid over three settings of an accepted configuration: a directory
and a time in seconds replace what is there, the check of the devices can only be turned off, and
what was accepted stays acceptable. -/
theorem configuration_is_filled_in_and_checked (document : String) :
    (∀ entries, Toml.parse document = some entries → WellTyped entries →
      ∃ c, Describes entries c ∧ (∀ c', Describes entries c' → c' = c) ∧
        (∀ c', ofToml document = .ok c' ↔ c' = c ∧
          1 ≤ c.idle.maxAttempts ∧ 1 ≤ c.phase.channelCapacity ∧
          c.timing.gpio.min ≤ c.timing.gpio.max ∧
          (∀ b, c.timing.uart = some b → b.min ≤ b.max) ∧
          c.timing.can.min ≤ c.timing.can.max ∧ c.timing.lin.min ≤ c.timing.lin.max) ∧
        ∀ e, ofToml document = .error e ↔ (violations c).head? = some e) ∧
    ((¬∃ entries, Toml.parse document = some entries ∧ WellTyped entries) →
      ofToml document = .error .invalid) ∧
    ∀ (o : Options) (c : Config),
      violations (o.override c) = violations c ∧
      (o.override c).serial = c.serial ∧ (o.override c).timing = c.timing ∧
      (o.override c).phase.channelCapacity = c.phase.channelCapacity ∧
      (o.override c).idle.maxAttempts = c.idle.maxAttempts ∧
      (o.override c).idle.retryDelayMs = c.idle.retryDelayMs ∧
      (o.override c).report.outputDir = o.outputDir.getD c.report.outputDir ∧
      (o.phaseTimeoutSeconds = none → (o.override c).phase.timeoutMs = c.phase.timeoutMs) ∧
      (∀ seconds, o.phaseTimeoutSeconds = some seconds →
        (o.override c).phase.timeoutMs = min (seconds * 1000) (2 ^ 64 - 1)) ∧
      ((o.override c).idle.enabled = true ↔ c.idle.enabled = true ∧ o.skipIdleCheck = false) := by
  refine ⟨?_, ofToml_of_not_wellTyped, ?_⟩
  · intro entries hparse htyped
    obtain ⟨c, hc⟩ := htyped.exists_describes
    -- once the document is known to describe `c`, what is left of reading it is the check of `c`
    have hvalidate := ofToml_of_wellTyped hparse htyped hc
    refine ⟨c, hc, ?_, ?_, ?_⟩
    · intro c' hc'
      have hsome := ofEntries?_eq_some_iff.2 ⟨htyped.sections, hc⟩
      rw [ofEntries?_eq_some_iff.2 ⟨htyped.sections, hc'⟩] at hsome
      exact Option.some.inj hsome
    · intro c'
      rw [hvalidate, validate_eq_ok_iff, violations_eq_nil_iff]
    · intro e
      rw [hvalidate, validate_eq_error_iff]
  · intro o c
    refine ⟨violations_override o c, rfl, rfl, rfl, rfl, rfl, rfl, ?_, ?_, ?_⟩
    · intro hnone
      simp [Options.override, hnone]
    · intro seconds hsome
      simp [Options.override, hsome, Options.longestMs, UInt64.size]
    · simp [Options.override]

/-- A section as an array, bounds as an array and as a table, an unknown key, and two violations. -/
def faultyDocument : String :=
  "timing = [[3, 2], \x7bmax_ms = 7, min_ms = 5\x7d]\n" ++
    "[idle]\nmax_attempts = 0\nretries = true\n[serial]\nbaud_rate = 9600"

def faultyEntries : List (String × Toml.Value) := [
  ("timing", .array [.array [.integer 3, .integer 2],
    .table [("max_ms", .integer 7), ("min_ms", .integer 5)]]),
  ("idle", .table [("max_attempts", .integer 0), ("retries", .boolean true)]),
  ("serial", .table [("baud_rate", .integer 9600)])]

def faultyConfig : Config :=
  { serial := { baudRate := 9600 }
    idle := { maxAttempts := 0 }
    timing := { gpio := ⟨3, 2⟩, uart := some ⟨5, 7⟩ } }

/-- It is well typed, and the first of its two violations is reported. -/
theorem faultyDocument_reports_its_first_violation :
    Toml.parse faultyDocument = some faultyEntries ∧ WellTyped faultyEntries ∧
      violations faultyConfig = [.noAttempts, .reversedBounds .gpio ⟨3, 2⟩] ∧
      ofToml faultyDocument = .error .noAttempts := by
  have hparse : Toml.parse faultyDocument = some faultyEntries := by cbv
  have hdecode : ofEntries? faultyEntries = some faultyConfig := by cbv
  obtain ⟨hsections, hdescribes⟩ := ofEntries?_eq_some_iff.1 hdecode
  have htyped : WellTyped faultyEntries := ⟨hsections, hdescribes.reads⟩
  have hviolations : violations faultyConfig = [.noAttempts, .reversedBounds .gpio ⟨3, 2⟩] := by
    decide
  obtain ⟨c, -, hunique, -, hreport⟩ :=
    (configuration_is_filled_in_and_checked faultyDocument).1 faultyEntries hparse htyped
  refine ⟨hparse, htyped, hviolations, (hreport _).2 ?_⟩
  rw [← hunique faultyConfig hdescribes, hviolations]
  rfl

/-- **A date in the place of a section is accepted** although it is none: nothing is said in it. -/
theorem date_is_accepted_as_section :
    Toml.parse "report = 2000-02-29T23:59:60z" =
        some [("report", .date "2000-02-29T23:59:60z")] ∧
      ofToml "report = 2000-02-29T23:59:60z" = .ok {} := by
  constructor
  · cbv
  · cbv

end Config

end BoardBench
