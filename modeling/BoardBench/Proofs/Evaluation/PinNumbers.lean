import BoardBench.Proofs.Evaluation.Pins
import BoardBench.Proofs.Event.Track

/-!
# Pin numbers — the order of the pins is checked up to the first digit

A pin is named by the address of its port and its number, as in `gpio@48000800 pin 12`, and the
check compares names of a fixed width. That is the width of a name with a number of one digit, so
that **of a longer number only the first digit is looked at**: pins whose names differ behind that
digit pass for one (`longer_numbers_pass_for_one`).

What is checked is that the three sequences agree in the port and the first digit at each position
(`pin_order_is_checked_up_to_the_first_digit`). With numbers of one digit that is the whole name.

The agreement is stated for a relation between pins, `Like` for the front part and `Same` for the
whole name, so that what the check does and what it is there to do are two instances of one
definition (`InOrder`). The logs are those in which all pins are named. In other payloads there is
no number to speak of, and the check compares whatever stands there.
-/

set_option autoImplicit false

namespace BoardBench.Evaluation.Gpio

/-! ## Names of pins -/

/-- A pin, by the address of its port and its number. -/
structure PinName where
  port : List Char
  number : List Char
  width : port.length = 8
  hex : ∀ c ∈ port, Text.isHexDigit c = true
  nonempty : number ≠ []
  decimal : ∀ c ∈ number, Text.isDecimalDigit c = true

namespace PinName

variable {p q : PinName} {word : String} {e : Event}

/-- What stands between the address of the port and the number of the pin. -/
def between : String := " pin "

/-- The name of the pin, as it stands in a payload. -/
def text (p : PinName) : List Char :=
  marker.toList ++ p.port ++ between.toList ++ p.number

/-- The event says this word of the pin. -/
def Says (p : PinName) (word : String) (e : Event) : Prop :=
  e.payload.toList = p.text ++ ' ' :: word.toList

/-- What is left of the name of a pin in the check. -/
def shown (p : PinName) : List Char :=
  marker.toList ++ p.port ++ between.toList ++ p.number.take 1

/-- The pins have the same port, and their numbers the same first digit. -/
def Like (p q : PinName) : Prop :=
  p.port = q.port ∧ p.number.head? = q.number.head?

/-- The pins have the same port and the same number. -/
def Same (p q : PinName) : Prop :=
  p.port = q.port ∧ p.number = q.number

theorem ascii_shown : ∀ c ∈ p.shown, c.val ≤ 127 := by
  intro c hc
  simp only [shown, List.mem_append] at hc
  rcases hc with ((hc | hc) | hc) | hc
  · have hlead : marker.toList.all (·.val ≤ 127) = true := by decide
    exact Text.ascii_of_all hlead c hc
  · exact Text.ascii_of_isHexDigit (p.hex c hc)
  · have hpin : between.toList.all (·.val ≤ 127) = true := by decide
    exact Text.ascii_of_all hpin c hc
  · have hdigit := p.decimal c (List.mem_of_mem_take hc)
    exact Text.ascii_of_isHexDigit (Text.isHexDigit_of_isDecimalDigit hdigit)

theorem length_shown : p.shown.length = pinWidth := by
  obtain ⟨c, rest, hnumber⟩ := List.exists_cons_of_ne_nil p.nonempty
  simp only [shown, List.length_append, p.width, hnumber]
  rfl

/-- **The check cuts a name off behind the first digit of the number.** -/
theorem pin_eq (h : p.Says word e) : pin e = String.ofList p.shown := by
  have hcut : e.payload.toList = p.shown ++ (p.number.drop 1 ++ ' ' :: word.toList) := by
    rw [h, text, shown]
    simp only [List.append_assoc]
    rw [← List.append_assoc (p.number.take 1), List.take_append_drop]
  have hfront := Text.firstBytes_of_ascii (p.number.drop 1 ++ ' ' :: word.toList) p.ascii_shown
  rw [length_shown, ← hcut] at hfront
  rw [pin, Event.channel, hfront]

theorem shown_eq_iff : p.shown = q.shown ↔ p.Like q := by
  have htake : ∀ {cs ds : List Char}, cs.take 1 = ds.take 1 ↔ cs.head? = ds.head? := by
    intro cs ds
    cases cs <;> cases ds <;> simp
  rw [Like, ← htake]
  simp only [shown, List.append_assoc, List.append_cancel_left_eq]
  constructor
  · intro h
    obtain ⟨hport, hrest⟩ := List.append_inj h (p.width.trans q.width.symm)
    exact ⟨hport, List.append_cancel_left hrest⟩
  · rintro ⟨hport, hnumber⟩
    rw [hport, hnumber]

theorem pin_eq_pin_iff {word' : String} {e' : Event} (h : p.Says word e) (h' : q.Says word' e') :
    pin e = pin e' ↔ p.Like q := by
  rw [pin_eq h, pin_eq h', String.ofList_inj, shown_eq_iff]

/-- With numbers of one digit, nothing is cut off. -/
theorem Like.same (h : p.Like q) (hp : p.number.length = 1) (hq : q.number.length = 1) :
    p.Same q := by
  obtain ⟨c, hc⟩ := List.length_eq_one_iff.1 hp
  obtain ⟨d, hd⟩ := List.length_eq_one_iff.1 hq
  obtain ⟨hport, hhead⟩ := h
  rw [hc, hd] at hhead
  refine ⟨hport, ?_⟩
  rw [hc, hd, Option.some.inj hhead]

/-- No edge can be taken for the other kind, as there is a letter in the one word that is not in the
report of the other. -/
theorem not_mem_text {c : Char} (hc : Text.isHexDigit c = false)
    (hword : c ∉ "gpio@ pin ".toList) : c ∉ p.text := by
  intro hmem
  have hlead : "gpio@ pin ".toList = marker.toList ++ between.toList := by decide
  rw [hlead, List.mem_append, not_or] at hword
  simp only [text, List.mem_append] at hmem
  rcases hmem with ((hmem | hmem) | hmem) | hmem
  · exact hword.1 hmem
  · exact absurd (p.hex c hmem) (by simp [hc])
  · exact hword.2 hmem
  · exact absurd (Text.isHexDigit_of_isDecimalDigit (p.decimal c hmem)) (by simp [hc])

theorem Says.not_mentions (h : p.Says word e) (kind : String) (c : Char)
    (hc : Text.isHexDigit c = false) (hlead : c ∉ "gpio@ pin ".toList) (hword : c ∉ word.toList)
    (hkind : c ∈ kind.toList) : e.mentions kind = false := by
  rw [← Bool.not_eq_true]
  intro hmentions
  have hmem : c ∈ e.payload.toList := (Text.occursIn_iff.1 hmentions).subset hkind
  rw [h, List.mem_append, List.mem_cons] at hmem
  rcases hmem with hmem | rfl | hmem
  · exact not_mem_text hc hlead hmem
  · exact hlead (by decide)
  · exact hword hmem

end PinName

/-! ## Sequences of pins -/

/-- At each position the reports of two sequences are about pins that `R` relates, and the sequences
have the same length. -/
def Match (R : PinName → PinName → Prop) (word word' : String) (xs ys : List Event) : Prop :=
  xs.length = ys.length ∧ ∀ (i : Nat) (x y : Event) (p q : PinName), xs[i]? = some x →
    ys[i]? = some y → p.Says word x → q.Says word' y → R p q

section Sequences

variable {R S : PinName → PinName → Prop} {word word' : String} {xs ys log : List Event}

theorem map_pin_eq_iff (hxs : ∀ e ∈ xs, ∃ p : PinName, p.Says word e)
    (hys : ∀ e ∈ ys, ∃ p : PinName, p.Says word' e) :
    xs.map pin = ys.map pin ↔ Match PinName.Like word word' xs ys := by
  constructor
  · intro h
    refine ⟨by simpa using congrArg List.length h, fun i x y p q hx hy hp hq => ?_⟩
    have hi := congrArg (·[i]?) h
    simp only [List.getElem?_map, hx, hy, Option.map_some, Option.some.injEq] at hi
    exact (PinName.pin_eq_pin_iff hp hq).1 hi
  · rintro ⟨hlength, hall⟩
    refine List.ext_getElem (by simpa using hlength) fun i hi hi' => ?_
    rw [List.length_map] at hi hi'
    obtain ⟨p, hp⟩ := hxs _ (List.getElem_mem hi)
    obtain ⟨q, hq⟩ := hys _ (List.getElem_mem hi')
    rw [List.getElem_map, List.getElem_map, PinName.pin_eq_pin_iff hp hq]
    exact hall i _ _ p q (List.getElem?_eq_getElem hi) (List.getElem?_eq_getElem hi') hp hq

/-- All pins that are selected are named: those that were switched on by the board under test, and
those of the edges by the tester. -/
def Named (log : List Event) : Prop :=
  (∀ e ∈ switchedOn log, ∃ p : PinName, p.Says "on" e) ∧
    ∀ e ∈ edges "rising" log ++ edges "falling" log,
      ∃ p : PinName, p.Says "rising" e ∨ p.Says "falling" e

theorem mentions_of_mem_edges {kind : String} {e : Event} (h : e ∈ edges kind log) :
    e.mentions kind = true := by
  have hwanted := (List.mem_filter.1 h).2
  rw [Bool.and_eq_true, Bool.and_eq_true] at hwanted
  exact hwanted.2.2

theorem Named.rising (h : Named log) :
    ∀ e ∈ edges "rising" log, ∃ p : PinName, p.Says "rising" e := by
  intro e he
  obtain ⟨p, hp | hp⟩ := h.2 e (List.mem_append_left _ he)
  · exact ⟨p, hp⟩
  · have hnot := hp.not_mentions "rising" 'r' (by decide) (by decide) (by decide) (by decide)
    rw [mentions_of_mem_edges he] at hnot
    cases hnot

theorem Named.falling (h : Named log) :
    ∀ e ∈ edges "falling" log, ∃ p : PinName, p.Says "falling" e := by
  intro e he
  obtain ⟨p, hp | hp⟩ := h.2 e (List.mem_append_right _ he)
  · have hnot := hp.not_mentions "falling" 'l' (by decide) (by decide) (by decide) (by decide)
    rw [mentions_of_mem_edges he] at hnot
    cases hnot
  · exact ⟨p, hp⟩

/-- The pins that were switched on are those of the rising edges and those of the falling ones. -/
def InOrder (R : PinName → PinName → Prop) (log : List Event) : Prop :=
  Match R "on" "rising" (switchedOn log) (edges "rising" log) ∧
    Match R "on" "falling" (switchedOn log) (edges "falling" log)

/-- All selected reports are about pins with a number of one digit. -/
def OneDigit (log : List Event) : Prop :=
  ∀ e ∈ switchedOn log ++ edges "rising" log ++ edges "falling" log,
    ∀ (p : PinName) (word : String), p.Says word e → p.number.length = 1

theorem Match.same (h : Match PinName.Like word word' xs ys)
    (hone : ∀ e ∈ xs ++ ys, ∀ (p : PinName) (word : String), p.Says word e → p.number.length = 1) :
    Match PinName.Same word word' xs ys := by
  refine ⟨h.1, fun i x y p q hx hy hp hq => ?_⟩
  have hxmem : x ∈ xs ++ ys := List.mem_append_left _ (List.mem_of_getElem? hx)
  have hymem : y ∈ xs ++ ys := List.mem_append_right _ (List.mem_of_getElem? hy)
  exact (h.2 i x y p q hx hy hp hq).same (hone x hxmem p word hp) (hone y hymem q word' hq)

end Sequences

/-- **The order of the pins is checked up to the first digit of their numbers.** Nothing is found in
a log in which all pins are named if and only if pins were switched on, the three sequences have the
same length, the ports and the first digits agree at each position, and the rising edges are the
right time apart. If all numbers have one digit, the pins are then the same. -/
theorem pin_order_is_checked_up_to_the_first_digit (timing : TimingSettings) (log : List Event)
    (hnamed : Named log) :
    ((ofLog timing .gpio log).diagnostics = [] ↔ switchedOn log ≠ [] ∧
      InOrder PinName.Like log ∧ (edges "rising" log).IsChain timing.gpio.Apart) ∧
    (OneDigit log → (ofLog timing .gpio log).diagnostics = [] → InOrder PinName.Same log) := by
  have hiff : (ofLog timing .gpio log).diagnostics = [] ↔ switchedOn log ≠ [] ∧
      InOrder PinName.Like log ∧ (edges "rising" log).IsChain timing.gpio.Apart := by
    rw [InOrder, ← map_pin_eq_iff hnamed.1 hnamed.rising, ← map_pin_eq_iff hnamed.1 hnamed.falling,
      and_assoc]
    exact findings_eq_nil_iff
  refine ⟨hiff, fun hone hnone => ?_⟩
  obtain ⟨-, ⟨hup, hdown⟩, -⟩ := hiff.1 hnone
  refine ⟨hup.same fun e he => hone e ?_, hdown.same fun e he => hone e ?_⟩
  · exact List.mem_append_left _ he
  · rcases List.mem_append.1 he with he | he
    · exact List.mem_append_left _ (List.mem_append_left _ he)
    · exact List.mem_append_right _ he

/-! ### Two pins that pass for one -/

/-- The address of a port. -/
def somePort : List Char := "48000800".toList

/-- A pin at this port. -/
def pinOf (number : String) (hne : number.toList ≠ [])
    (hdecimal : number.toList.all Text.isDecimalDigit = true) : PinName :=
  ⟨somePort, number.toList, rfl, List.all_eq_true.1 (by decide), hne,
    List.all_eq_true.1 hdecimal⟩

def pin1 : PinName := pinOf "1" (by decide) (by decide)

def pin12 : PinName := pinOf "12" (by decide) (by decide)

/-- The board under test switches one pin on, and the tester sees the edges on another one. -/
def miswired : List Event :=
  [⟨100, .inf, "sut", "gpio@48000800 pin 1 on"⟩,
    ⟨101, .inf, "tester", "gpio@48000800 pin 12 rising"⟩,
    ⟨111, .inf, "tester", "gpio@48000800 pin 12 falling"⟩]

theorem named_miswired : Named miswired := by
  have hon : switchedOn miswired = [⟨100, .inf, "sut", "gpio@48000800 pin 1 on"⟩] := by decide
  have hedges : edges "rising" miswired ++ edges "falling" miswired =
      [⟨101, .inf, "tester", "gpio@48000800 pin 12 rising"⟩,
        ⟨111, .inf, "tester", "gpio@48000800 pin 12 falling"⟩] := by decide
  rw [Named, hon, hedges]
  refine ⟨List.forall_mem_singleton.2 ⟨pin1, rfl⟩, List.forall_mem_cons.2 ⟨⟨pin12, .inl rfl⟩, ?_⟩⟩
  exact List.forall_mem_singleton.2 ⟨pin12, .inr rfl⟩

/-- Pins that are in order as far as they are looked at. -/
theorem miswired_is_in_order : InOrder PinName.Like miswired :=
  ((pin_order_is_checked_up_to_the_first_digit {} miswired named_miswired).1.1
    (by decide +kernel)).2.1

/-- **Not the whole number of a pin is checked**: nothing is found, and yet the edges are those of
another pin. -/
theorem longer_numbers_pass_for_one :
    ¬ ∀ (timing : TimingSettings) (log : List Event), Named log →
      (ofLog timing .gpio log).diagnostics = [] → InOrder PinName.Same log := by
  intro h
  obtain ⟨⟨-, hsame⟩, -⟩ := h {} miswired named_miswired (by decide +kernel)
  obtain ⟨-, hnumber⟩ := hsame 0 _ _ pin1 pin12 rfl rfl rfl rfl
  exact absurd hnumber (by decide)

end BoardBench.Evaluation.Gpio
