import BoardBench.Evaluation.OfLog
import BoardBench.Proofs.Event.Wire

/-!
# Tracks — the reports that a test consists of

In a test the two boards report one thing after another: a frame sent, a character received, an
edge on a pin. Reports of one kind make up a `Track`, and one report in it is a `Sighting`: when,
at which peripheral, and what. `Track.payload` is the format that the firmware gives it.

An evaluation sees less of a sighting than was reported, and it sees it through searches and cuts in
the payload. Two facts sum up what it sees:

* `Track.wants_event`: it **tells the tracks apart**, so that each of its selections is one track;
* `Track.mark_event`: of a sighting it sees the peripheral and what `Sighting.told` says, and **of
  these everything** (`Subsystem.shown_injective`).

The formats are data of the module: one payload for each kind of report, put together from what
stands before and behind the datum. All facts about searches are then about these few words, and are
proved by looking at which characters occur in them and where. The kinds are gone through by cases
for this, ten of them, and nowhere else.

What an evaluation sees is defined twice. `Event.mark` computes it from an event, as the code does;
`Sighting.told` says it of a sighting, without any text. That the two agree is `mark_event`, and
that nothing is confused on the way is a fact about texts alone (`shown_injective`).
-/

set_option autoImplicit false

namespace BoardBench

/-! ## Sightings -/

/-- The address of a peripheral, which is part of its name. -/
structure Address where
  text : String
  width : text.toList.length = 8
  hex : ∀ c ∈ text.toList, Text.isHexDigit c = true
deriving DecidableEq

theorem Address.ext_text {u v : Address} (h : u.text.toList = v.text.toList) : u = v := by
  obtain ⟨s, hs, hs'⟩ := u
  obtain ⟨t, ht, ht'⟩ := v
  have heq : s = t := String.toList_inj.1 h
  subst heq
  rfl

/-- One report: when, about which peripheral, and what it says about it, such as the character sent
there or the number of a pin. -/
structure Sighting where
  timeMs : UInt64
  unit : Address
  datum : String
deriving DecidableEq

/-- What can stand as a datum: a character for the UARTs, a number for the pins, and for the buses
any text that does not end in a blank. -/
def Subsystem.Carries (s : Subsystem) (datum : String) : Prop :=
  match s with
  | .uart => ∃ c, datum.toList = [c] ∧ Text.isBlank c = false
  | .gpio => ∃ n, datum = Text.decimal n
  | _ => ∃ c, datum.toList.getLast? = some c ∧ Text.isBlank c = false

/-- What an evaluation is told of a sighting: the peripheral, and of the datum the last character on
LIN and UART, the first digit of the pin, and everything on CAN. -/
def Sighting.told (s : Subsystem) (x : Sighting) : Address × List Char :=
  (x.unit, match s with
    | .gpio => x.datum.toList.take 1
    | .can => x.datum.toList
    | _ => x.datum.toList.getLast?.toList)

/-! ## Tracks -/

/-- The kinds of reports. -/
inductive Track where
  | linSent
  | linReceived
  | uartSent
  | uartReceived
  | uartEchoed
  | pinOn
  | pinRising
  | pinFalling
  | canSent
  | canReceived
deriving Repr, DecidableEq

/-- The word in front of the addresses in a test. -/
def Subsystem.marker : Subsystem → String
  | .lin => Evaluation.Lin.marker
  | .uart => Evaluation.Uart.marker
  | .gpio => Evaluation.Gpio.marker
  | .can => Evaluation.Can.marker

theorem Event.isFrom_tag (time : UInt64) (r r' : Role) (payload : String) :
    (⟨time, .inf, r.tag, payload⟩ : Event).isFrom r' = decide (r = r') := by
  show Text.sameFolded r.tag r'.tag = decide (r = r')
  cases r <;> cases r' <;> decide

/-- A text with a character that occurs only at the end of a payload, and not at its own, is not
mentioned. -/
theorem Event.not_mentions {e : Event} {needle : String} (c : Char)
    (hn : c ∈ needle.toList.dropLast) (hc : c ∉ e.payload.toList.dropLast) :
    e.mentions needle = false := by
  rw [← Bool.not_eq_true]
  intro hmentions
  obtain ⟨front, back, heq⟩ := Text.occursIn_iff.1 hmentions
  have hne : needle.toList ≠ [] := by
    intro hnil
    rw [hnil] at hn
    cases hn
  apply hc
  rw [← heq]
  rcases List.eq_nil_or_concat back with rfl | ⟨back, last, rfl⟩
  · rw [List.append_nil, List.dropLast_append_of_ne_nil hne]
    exact List.mem_append_right _ hn
  · rw [List.concat_eq_append, ← List.append_assoc, List.dropLast_concat]
    exact List.mem_append_left _ (List.mem_append_right _ (List.dropLast_subset _ hn))

namespace Track

/-- The test in which such reports are made. -/
def subsystem : Track → Subsystem
  | .linSent | .linReceived => .lin
  | .uartSent | .uartReceived | .uartEchoed => .uart
  | .pinOn | .pinRising | .pinFalling => .gpio
  | .canSent | .canReceived => .can

/-- The board that makes them. -/
def role : Track → Role
  | .linSent | .uartReceived | .pinOn | .canSent => .sut
  | .linReceived | .uartSent | .uartEchoed | .pinRising | .pinFalling | .canReceived => .tester

/-- In every test the other board makes reports as well. -/
theorem exists_counterpart (k : Track) :
    ∃ j : Track, j.subsystem = k.subsystem ∧ j.role ≠ k.role := by
  cases k with
  | linSent => exact ⟨.linReceived, by decide⟩
  | linReceived => exact ⟨.linSent, by decide⟩
  | uartSent => exact ⟨.uartReceived, by decide⟩
  | uartReceived => exact ⟨.uartSent, by decide⟩
  | uartEchoed => exact ⟨.uartReceived, by decide⟩
  | pinOn => exact ⟨.pinRising, by decide⟩
  | pinRising => exact ⟨.pinOn, by decide⟩
  | pinFalling => exact ⟨.pinOn, by decide⟩
  | canSent => exact ⟨.canReceived, by decide⟩
  | canReceived => exact ⟨.canSent, by decide⟩

def before : Track → String
  | .linSent | .uartSent => " sending: "
  | .linReceived | .uartReceived | .uartEchoed => " received "
  | .pinOn | .pinRising | .pinFalling => " pin "
  | .canSent | .canReceived => ": frame id: "

def behind : Track → String
  | .pinOn => " on"
  | .pinRising => " rising"
  | .pinFalling => " falling"
  | _ => ""

def payload (k : Track) (x : Sighting) : String :=
  k.subsystem.marker ++ x.unit.text ++ k.before ++ x.datum ++ k.behind

/-- A report, as the board that makes it logs it. -/
def event (k : Track) (x : Sighting) : Event :=
  ⟨x.timeMs, .inf, k.role.tag, k.payload x⟩

/-- What the evaluation of the test looks for. -/
def wants : Track → Event → Bool
  | .linSent => fun e => e.mentions Evaluation.Lin.marker && e.mentions "sending"
  | .linReceived => fun e => e.mentions Evaluation.Lin.marker && e.mentions "received"
  | .uartSent => fun e => e.mentions Evaluation.Uart.marker && e.mentions "send"
  | .uartReceived | .uartEchoed =>
    fun e => e.mentions Evaluation.Uart.marker && e.mentions "received"
  | .pinOn => fun e => e.mentions Evaluation.Gpio.marker && Text.endsWith e.payload "on"
  | .pinRising => fun e => e.mentions Evaluation.Gpio.marker && e.mentions "rising"
  | .pinFalling => fun e => e.mentions Evaluation.Gpio.marker && e.mentions "falling"
  | .canSent | .canReceived => (·.mentions Evaluation.Can.marker)

variable {j k : Track} {x : Sighting}

theorem toList_payload (k : Track) (x : Sighting) :
    (k.payload x).toList = k.subsystem.marker.toList ++ x.unit.text.toList ++ k.before.toList ++
      x.datum.toList ++ k.behind.toList := by
  simp [payload]

/-! ### The ends of a payload -/

theorem exists_last_datum (h : k.subsystem.Carries x.datum) :
    ∃ c, x.datum.toList.getLast? = some c ∧ Text.isBlank c = false := by
  have hdigit : ∀ d : Fin 10, Text.isBlank (Text.digitChar d) = false := by decide
  cases hs : k.subsystem with
  | uart =>
    rw [hs] at h
    obtain ⟨c, hc, hblank⟩ := h
    exact ⟨c, by rw [hc]; rfl, hblank⟩
  | gpio =>
    rw [hs] at h
    obtain ⟨n, hn⟩ := h
    have hne : x.datum.toList ≠ [] := by
      rw [hn, Text.decimal, String.toList_ofList]
      exact Text.digits_ne_nil n
    refine ⟨x.datum.toList.getLast hne, List.getLast?_eq_some_getLast hne, ?_⟩
    have hmem := List.getLast_mem hne
    simp only [hn, Text.decimal, String.toList_ofList] at hmem ⊢
    obtain ⟨d, hd, heq⟩ := Text.mem_digits hmem
    rw [heq]
    exact hdigit ⟨d, hd⟩
  | can =>
    rw [hs] at h
    exact h
  | lin =>
    rw [hs] at h
    exact h

/-- A report comes back from its wire form. -/
theorem legible_event (h : k.subsystem.Carries x.datum) : (k.event x).Legible := by
  obtain ⟨c, hc, hblank⟩ := exists_last_datum h
  have hmarker : ∀ s : Subsystem, ∃ c, s.marker.toList.head? = some c ∧ Text.isBlank c = false := by
    intro s
    cases s <;> exact ⟨_, rfl, by decide⟩
  have hbehind : k.behind.toList = [] ∨
      ∃ c, k.behind.toList.getLast? = some c ∧ Text.isBlank c = false := by
    cases k <;> first | exact Or.inl rfl | exact Or.inr ⟨_, rfl, by decide⟩
  obtain ⟨m, hm, hmblank⟩ := hmarker k.subsystem
  have hhead : (k.payload x).toList.head? = some m := by
    simp [toList_payload, List.head?_append, hm]
  rcases hbehind with hnone | ⟨d, hd, hdblank⟩
  · refine Event.legible_inf hhead hmblank (d := c) ?_ hblank
    rw [toList_payload, hnone, List.append_nil, List.getLast?_append, hc, Option.some_or]
  · refine Event.legible_inf hhead hmblank (d := d) ?_ hdblank
    rw [toList_payload, List.getLast?_append, hd, Option.some_or]

theorem at_mem_marker (s : Subsystem) : '@' ∈ s.marker.toList := by
  cases s <;> decide

/-- No report is a start or stop message, as these have no address in them … -/
theorem at_mem_payload (k : Track) (x : Sighting) : '@' ∈ (k.payload x).toList := by
  simp [toList_payload, at_mem_marker]

/-! ### Telling tracks apart -/

theorem mentions_of_infix {needle : String} (h : needle.toList <:+: (k.payload x).toList) :
    (k.event x).mentions needle = true :=
  Text.occursIn_iff.2 h

theorem mentions_marker (k : Track) (x : Sighting) :
    (k.event x).mentions k.subsystem.marker = true := by
  refine mentions_of_infix ⟨[], x.unit.text.toList ++ k.before.toList ++ x.datum.toList ++
    k.behind.toList, ?_⟩
  simp [toList_payload]

theorem mentions_before {needle : String} (h : Text.contains k.before needle = true) :
    (k.event x).mentions needle = true := by
  obtain ⟨front, back, heq⟩ := Text.occursIn_iff.1 h
  refine mentions_of_infix ⟨k.subsystem.marker.toList ++ x.unit.text.toList ++ front,
    back ++ x.datum.toList ++ k.behind.toList, ?_⟩
  rw [toList_payload, ← heq]
  simp

theorem mentions_behind {needle : String} (h : Text.endsWith k.behind needle = true) :
    (k.event x).mentions needle = true := by
  obtain ⟨front, heq⟩ := List.isSuffixOf_iff_suffix.1 h
  refine mentions_of_infix ⟨k.subsystem.marker.toList ++ x.unit.text.toList ++ k.before.toList ++
    x.datum.toList ++ front, [], ?_⟩
  rw [toList_payload, ← heq]
  simp

theorem endsWith_behind {needle : String} (h : Text.endsWith k.behind needle = true) :
    Text.endsWith (k.event x).payload needle = true := by
  obtain ⟨front, heq⟩ := List.isSuffixOf_iff_suffix.1 h
  refine List.isSuffixOf_iff_suffix.2 ⟨k.subsystem.marker.toList ++ x.unit.text.toList ++
    k.before.toList ++ x.datum.toList ++ front, ?_⟩
  show _ = (k.payload x).toList
  rw [toList_payload, ← heq]
  simp

/-- An evaluation finds what it looks for. -/
theorem wants_self (k : Track) (x : Sighting) : k.wants (k.event x) = true := by
  have hmarker := mentions_marker k x
  cases k with
  | linSent => exact Bool.and_eq_true_iff.2 ⟨hmarker, mentions_before (by decide)⟩
  | linReceived => exact Bool.and_eq_true_iff.2 ⟨hmarker, mentions_before (by decide)⟩
  | uartSent => exact Bool.and_eq_true_iff.2 ⟨hmarker, mentions_before (by decide)⟩
  | uartReceived => exact Bool.and_eq_true_iff.2 ⟨hmarker, mentions_before (by decide)⟩
  | uartEchoed => exact Bool.and_eq_true_iff.2 ⟨hmarker, mentions_before (by decide)⟩
  | pinOn => exact Bool.and_eq_true_iff.2 ⟨hmarker, endsWith_behind (by decide)⟩
  | pinRising => exact Bool.and_eq_true_iff.2 ⟨hmarker, mentions_behind (by decide)⟩
  | pinFalling => exact Bool.and_eq_true_iff.2 ⟨hmarker, mentions_behind (by decide)⟩
  | canSent => exact hmarker
  | canReceived => exact hmarker

/-- What the characters of a payload are, all but its last one. -/
theorem not_mem_dropLast_payload {c : Char} (hmarker : c ∉ k.subsystem.marker.toList)
    (hhex : Text.isHexDigit c = false) (hbefore : c ∉ k.before.toList)
    (hbehind : c ∉ k.behind.toList.dropLast)
    (hdatum : k.behind.toList = [] ∧ x.datum.toList ≠ [] ∧ c ∉ x.datum.toList.dropLast ∨
      k.behind.toList ≠ [] ∧ c ∉ x.datum.toList) :
    c ∉ (k.payload x).toList.dropLast := by
  have hunit : c ∉ x.unit.text.toList := by
    intro hmem
    rw [x.unit.hex c hmem] at hhex
    cases hhex
  rw [toList_payload]
  rcases hdatum with ⟨hnil, hne, hdatum⟩ | ⟨hne, hdatum⟩
  · rw [hnil, List.append_nil, List.dropLast_append_of_ne_nil hne]
    simp [hmarker, hunit, hbefore, hdatum]
  · rw [List.dropLast_append_of_ne_nil hne]
    simp [hmarker, hunit, hbefore, hdatum, hbehind]

/-- A report of the same board in the same test is not taken for one of another track. -/
theorem not_wants (hc : j.subsystem.Carries x.datum) (hs : j.subsystem = k.subsystem)
    (hr : j.role = k.role) (hne : j ≠ k) : k.wants (j.event x) = false := by
  have hpairs : ∀ j k : Track, j.subsystem = k.subsystem → j.role = k.role → j ≠ k →
      (j, k) = (uartSent, uartEchoed) ∨ (j, k) = (uartEchoed, uartSent) ∨
        (j, k) = (pinRising, pinFalling) ∨ (j, k) = (pinFalling, pinRising) := by
    intro j k
    cases j <;> cases k <;> decide
  have huart : ∀ {c : Char}, Subsystem.uart.Carries x.datum →
      x.datum.toList ≠ [] ∧ c ∉ x.datum.toList.dropLast := by
    rintro c ⟨d, hd, -⟩
    simp [hd]
  have hgpio : ∀ {c : Char}, (∀ d : Fin 10, c ≠ Text.digitChar d) → Subsystem.gpio.Carries x.datum →
      c ∉ x.datum.toList := by
    rintro c hdigit ⟨n, hn⟩ hmem
    rw [hn, Text.decimal, String.toList_ofList] at hmem
    obtain ⟨d, hd, heq⟩ := Text.mem_digits hmem
    exact hdigit ⟨d, hd⟩ heq
  -- one character decides each time: it is in the word looked for, and cannot be in the payload
  rcases hpairs j k hs hr hne with h | h | h | h
  · cases h
    have hword : (uartSent.event x).mentions "received" = false :=
      Event.not_mentions 'v' (by decide) (not_mem_dropLast_payload (by decide) (by decide)
        (by decide) (by decide) (Or.inl ⟨rfl, huart hc⟩))
    exact Bool.and_eq_false_iff.2 (Or.inr hword)
  · cases h
    have hword : (uartEchoed.event x).mentions "send" = false :=
      Event.not_mentions 'n' (by decide) (not_mem_dropLast_payload (by decide) (by decide)
        (by decide) (by decide) (Or.inl ⟨rfl, huart hc⟩))
    exact Bool.and_eq_false_iff.2 (Or.inr hword)
  · cases h
    have hword : (pinRising.event x).mentions "falling" = false :=
      Event.not_mentions 'l' (by decide) (not_mem_dropLast_payload (by decide) (by decide)
        (by decide) (by decide) (Or.inr ⟨by decide, hgpio (by decide) hc⟩))
    exact Bool.and_eq_false_iff.2 (Or.inr hword)
  · cases h
    have hword : (pinFalling.event x).mentions "rising" = false :=
      Event.not_mentions 'r' (by decide) (not_mem_dropLast_payload (by decide) (by decide)
        (by decide) (by decide) (Or.inr ⟨by decide, hgpio (by decide) hc⟩))
    exact Bool.and_eq_false_iff.2 (Or.inr hword)

/-- **An evaluation tells apart what one board reports in its test.** -/
theorem wants_event (hc : j.subsystem.Carries x.datum) (hs : j.subsystem = k.subsystem)
    (hr : j.role = k.role) : k.wants (j.event x) = decide (j = k) := by
  by_cases hne : j = k
  · rw [hne, wants_self, decide_eq_true rfl]
  · rw [not_wants hc hs hr hne, decide_eq_false hne]

/-- … and so are not taken for one. -/
theorem not_wants_of_no_address {e : Event} (k : Track) (h : '@' ∉ e.payload.toList) :
    k.wants e = false := by
  have hmarker : e.mentions k.subsystem.marker = false := by
    rw [← Bool.not_eq_true]
    intro hmentions
    exact h ((Text.occursIn_iff.1 hmentions).subset (at_mem_marker _))
  cases k with
  | canSent => exact hmarker
  | canReceived => exact hmarker
  | _ => exact Bool.and_eq_false_iff.2 (Or.inl hmarker)

/-! ### What is told of a sighting -/

end Track

/-- How many bytes of a payload the evaluation takes for the name of a peripheral, or of a pin. -/
def Subsystem.width : Subsystem → Nat
  | .lin => Evaluation.Lin.width
  | .uart => Evaluation.Uart.width
  | .gpio => Evaluation.Gpio.pinWidth
  | .can => Evaluation.Can.width

/-- What the evaluation compares of two events about one peripheral: their last characters, or the
payloads. Of pins it compares nothing but their names. -/
def Subsystem.compared : Subsystem → Event → String
  | .lin | .uart => Event.shownLast
  | .gpio => fun _ => ""
  | .can => Event.payload

/-- What the evaluation makes of an event: the name, and what it compares. -/
def Event.mark (s : Subsystem) (e : Event) : String × String :=
  (e.channel s.width, s.compared e)

/-- The same, from what it is told. -/
def Subsystem.shown (s : Subsystem) (p : Address × List Char) : String × String :=
  match s with
  | .gpio => (s.marker ++ p.1.text ++ " pin " ++ String.ofList p.2, "")
  | .can => (s.marker ++ p.1.text, s.marker ++ p.1.text ++ ": frame id: " ++ String.ofList p.2)
  | _ => (s.marker ++ p.1.text, String.ofList p.2)

/-- **Nothing of what an evaluation is told is lost in what it makes of it.** -/
theorem Subsystem.shown_injective (s : Subsystem) {p q : Address × List Char}
    (h : s.shown p = s.shown q) : p = q := by
  obtain ⟨u, cs⟩ := p
  obtain ⟨v, ds⟩ := q
  have hname : s.marker ++ u.text = s.marker ++ v.text → u = v := by
    intro heq
    have hlist := congrArg String.toList heq
    rw [String.toList_append, String.toList_append] at hlist
    exact Address.ext_text (List.append_cancel_left hlist)
  have hchars : String.ofList cs = String.ofList ds → cs = ds := String.ofList_inj.1
  cases s with
  | gpio =>
    have hlist := congrArg (fun r => r.1.toList) h
    simp only [Subsystem.shown, String.toList_append, String.toList_ofList,
      List.append_assoc] at hlist
    -- the addresses are of one length, so that both cuts are at the same place
    obtain ⟨hunit, hrest⟩ := List.append_inj (List.append_cancel_left hlist)
      (u.width.trans v.width.symm)
    rw [Address.ext_text hunit, List.append_cancel_left hrest]
  | can =>
    obtain ⟨hunit, htext⟩ := Prod.mk.inj h
    obtain rfl := hname hunit
    have hlist := congrArg String.toList htext
    simp only [String.toList_append, String.toList_ofList, List.append_assoc] at hlist
    rw [List.append_cancel_left (List.append_cancel_left (List.append_cancel_left hlist))]
  | lin =>
    obtain ⟨hunit, htext⟩ := Prod.mk.inj h
    rw [hname hunit, hchars htext]
  | uart =>
    obtain ⟨hunit, htext⟩ := Prod.mk.inj h
    rw [hname hunit, hchars htext]

theorem Text.firstBytes_of_ascii {front : List Char} (rest : List Char)
    (h : ∀ c ∈ front, c.val ≤ 127) : firstBytes front.length (front ++ rest) = some front := by
  induction front with
  | nil => simp [firstBytes]
  | cons c cs ih =>
    have hsize : c.utf8Size = 1 := Char.utf8Size_eq_one_iff.2 (h c List.mem_cons_self)
    have hrest := ih fun d hd => h d (List.mem_cons_of_mem _ hd)
    rw [List.length_cons, List.cons_append, firstBytes, hsize, if_pos (Nat.le_add_left 1 _),
      Nat.add_sub_cancel, hrest]
    rfl

theorem Text.ascii_of_all {cs : List Char} (h : cs.all (·.val ≤ 127) = true) :
    ∀ c ∈ cs, c.val ≤ 127 := by
  simpa using h

theorem Text.ascii_of_isHexDigit {c : Char} (h : isHexDigit c = true) : c.val ≤ 127 := by
  have hle : ∀ {d : Char}, c ≤ d → d.val ≤ 127 → c.val ≤ 127 := fun h hd => UInt32.le_trans h hd
  simp only [isHexDigit, isDecimalDigit, Bool.or_eq_true, Bool.and_eq_true, decide_eq_true_eq] at h
  rcases h with (⟨-, h⟩ | ⟨-, h⟩) | ⟨-, h⟩
  · exact hle h (by decide)
  · exact hle h (by decide)
  · exact hle h (by decide)

namespace Track

variable {k : Track} {x : Sighting}

/-- The name of a peripheral is cut off right behind its address. -/
theorem channel_event {n : Nat} (front rest : List Char) (hn : front.length = n)
    (hp : (k.payload x).toList = front ++ rest) (hascii : ∀ c ∈ front, c.val ≤ 127) :
    (k.event x).channel n = String.ofList front := by
  have hcut : Text.firstBytes n (k.event x).payload.toList = some front := by
    show Text.firstBytes n (k.payload x).toList = _
    rw [hp, ← hn, Text.firstBytes_of_ascii rest hascii]
  rw [Event.channel, hcut]

theorem lastChar_event {c : Char} (hbehind : k.behind = "")
    (hlast : x.datum.toList.getLast? = some c) : (k.event x).lastChar = some c := by
  show (k.payload x).toList.getLast? = _
  rw [toList_payload, hbehind, String.toList_empty, List.append_nil, List.getLast?_append, hlast,
    Option.some_or]

theorem ascii_of_mem_name {s : Subsystem} {u : Address} {c : Char}
    (h : c ∈ s.marker.toList ++ u.text.toList) : c.val ≤ 127 := by
  have hmarker : ∀ s : Subsystem, ∀ c ∈ s.marker.toList, c.val ≤ 127 := by
    intro s
    cases s <;> exact Text.ascii_of_all (by decide)
  rcases List.mem_append.1 h with h | h
  · exact hmarker s c h
  · exact Text.ascii_of_isHexDigit (u.hex c h)

/-- Where there are channels, the channel is named by the marker and the address. -/
theorem channel_eq_name (h : k.subsystem ≠ .gpio) :
    (k.event x).channel k.subsystem.width = k.subsystem.marker ++ x.unit.text := by
  have hwidth : ∀ s : Subsystem, s ≠ .gpio → s.marker.toList.length + 8 = s.width := by
    intro s
    cases s <;> decide
  rw [channel_event (k.subsystem.marker.toList ++ x.unit.text.toList) _
    (by rw [List.length_append, x.unit.width, hwidth _ h])
    (by rw [toList_payload, List.append_assoc, List.append_assoc])
    fun c hc => ascii_of_mem_name hc]
  simp

/-- Of a pin, the name is cut off behind the first digit. -/
theorem channel_eq_pin (h : k.subsystem = .gpio) {n : Nat} (hn : x.datum = Text.decimal n) :
    (k.event x).channel Subsystem.gpio.width = Subsystem.gpio.marker ++ x.unit.text ++ " pin " ++
      String.ofList (x.datum.toList.take 1) := by
  have hbefore : ∀ k : Track, k.subsystem = .gpio → k.before = " pin " := by
    intro k
    cases k <;> decide
  have hascii : ∀ d : Fin 10, (Text.digitChar d).val ≤ 127 := by decide
  have hdatum : x.datum.toList = Text.digits n := by rw [hn, Text.decimal, String.toList_ofList]
  cases hdigits : Text.digits n with
  | nil => exact absurd hdigits (Text.digits_ne_nil n)
  | cons d ds =>
    have hmem : d ∈ Text.digits n := by
      rw [hdigits]
      exact List.mem_cons_self
    obtain ⟨v, hv, hd⟩ := Text.mem_digits hmem
    rw [hdigits] at hdatum
    -- the width of a channel ends with one digit, and so the number is cut behind its first one
    rw [channel_event (Subsystem.gpio.marker.toList ++ x.unit.text.toList ++ " pin ".toList ++ [d])
      (ds ++ k.behind.toList)]
    · rw [← String.toList_inj]
      simp [hdatum]
    · simp only [List.length_append, x.unit.width]
      rfl
    · rw [toList_payload, h, hbefore k h, hdatum]
      simp
    · intro c hc
      rw [List.append_assoc] at hc
      rcases List.mem_append.1 hc with hc | hc
      · exact ascii_of_mem_name hc
      · have hpin : ∀ c ∈ " pin ".toList, c.val ≤ 127 := Text.ascii_of_all (by decide)
        rcases List.mem_append.1 hc with hc | hc
        · exact hpin c hc
        · rw [List.mem_singleton.1 hc, hd]
          exact hascii ⟨v, hv⟩

/-- **What an evaluation makes of a report depends on what it is told of the sighting only.** -/
theorem mark_event (hc : k.subsystem.Carries x.datum) :
    (k.event x).mark k.subsystem = k.subsystem.shown (x.told k.subsystem) := by
  obtain ⟨c, hlast, -⟩ := exists_last_datum hc
  have hbehind : ∀ k : Track, k.subsystem ≠ .gpio → k.behind = "" := by
    intro k
    cases k <;> decide
  have hcan : ∀ k : Track, k.subsystem = .can → k.before = ": frame id: " := by
    intro k
    cases k <;> decide
  have hlastChar : k.subsystem ≠ .gpio →
      (k.event x).shownLast = String.ofList x.datum.toList.getLast?.toList := by
    intro hne
    rw [Event.shownLast, lastChar_event (hbehind k hne) hlast, hlast]
  -- of a CAN frame the whole payload is shown, of LIN and UART only the last character, which
  -- the datum ends with, and of a pin only its name
  cases hs : k.subsystem with
  | gpio =>
    rw [hs] at hc
    obtain ⟨n, hn⟩ := hc
    exact Prod.ext (channel_eq_pin hs hn) rfl
  | lin =>
    have hname := channel_eq_name (k := k) (x := x) (by simp [hs])
    rw [hs] at hname
    exact Prod.ext hname (hlastChar (by simp [hs]))
  | uart =>
    have hname := channel_eq_name (k := k) (x := x) (by simp [hs])
    rw [hs] at hname
    exact Prod.ext hname (hlastChar (by simp [hs]))
  | can =>
    have hname := channel_eq_name (k := k) (x := x) (by simp [hs])
    rw [hs] at hname
    apply Prod.ext hname
    show k.payload x = _
    rw [payload, hs, hcan k hs, hbehind k (by simp [hs])]
    simp [Subsystem.shown, Sighting.told]

end Track

end BoardBench
