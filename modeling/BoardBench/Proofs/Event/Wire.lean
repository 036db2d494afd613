import BoardBench.Event.Line

/-!
# The wire form — a line that was written from an event reads as that event

The reader of lines takes decoration off: brackets around the time stamp, angle brackets around the
level, colons behind the device, blanks around the payload. So an event comes back from its wire
form if it has no decoration of its own in these places. `Event.Legible` says what that means part
by part, and **`Line.parse_wire` is the round trip**.

The time stamp needs no such condition: `Text.readCount_digits` says that every 64-bit count is read
back from its decimal digits.

`Legible` speaks of the first and last characters of the parts and not of what trimming does to
them. It can be checked on an event at hand, and it is as weak as it can be, as the module on the
grammar of lines shows: whatever is read from any line is legible. The condition on the level is
that its token is its own, because an event may be made up with a token that would be read as
another level.
-/

set_option autoImplicit false

namespace BoardBench

namespace Text

/-! ## Decimal digits -/

theorem digitValue?_digitChar {d : Nat} (h : d < 10) : digitValue? (digitChar d) = some d := by
  have hall : ∀ d : Fin 10, digitValue? (digitChar d) = some d.val := by decide
  exact hall ⟨d, h⟩

theorem digitChar_ne_plus {d : Nat} (h : d < 10) : digitChar d ≠ '+' := by
  have hall : ∀ d : Fin 10, digitChar d ≠ '+' := by decide
  exact hall ⟨d, h⟩

/-- A scan goes on where it has come to. -/
theorem scanDigits_append {v n : Nat} {cs : List Char} (h : scanDigits v cs = .ok n)
    (more : List Char) : scanDigits v (cs ++ more) = scanDigits n more := by
  induction cs generalizing v with
  | nil =>
    cases h
    rfl
  | cons c cs ih =>
    rw [scanDigits] at h
    rw [List.cons_append, scanDigits]
    split at h
    · cases h
    · rename_i d hd
      split at h
      · rename_i hlt
        rw [if_pos hlt]
        exact ih h
      · cases h

theorem scanDigits_digits {n : Nat} (h : n < UInt64.size) : scanDigits 0 (digits n) = .ok n := by
  fun_induction digits n with
  | case1 n hn =>
    rw [scanDigits, digitValue?_digitChar hn]
    simp only [Nat.mul_zero, Nat.zero_add, if_pos h, scanDigits]
  | case2 n hn ih =>
    have hlast : n % 10 < 10 := Nat.mod_lt n (by decide)
    have hvalue : 10 * (n / 10) + n % 10 = n := Nat.div_add_mod n 10
    rw [scanDigits_append (ih (by omega)), scanDigits, digitValue?_digitChar hlast]
    simp only [hvalue, if_pos h, scanDigits]

theorem mem_digits {n : Nat} {c : Char} (h : c ∈ digits n) : ∃ d < 10, c = digitChar d := by
  fun_induction digits n with
  | case1 n hn => exact ⟨n, hn, List.mem_singleton.1 h⟩
  | case2 n hn ih =>
    rcases List.mem_append.1 h with h | h
    · exact ih h
    · exact ⟨n % 10, Nat.mod_lt n (by decide), List.mem_singleton.1 h⟩

theorem digits_ne_nil (n : Nat) : digits n ≠ [] := by
  rw [digits]
  split <;> simp

/-- **Every 64-bit count is read back from its digits.** -/
theorem readCount_digits (n : UInt64) : readCount (digits n.toNat) = .ok n := by
  have hscan := scanDigits_digits n.toNat_lt
  unfold readCount
  split
  · rename_i hnil
    exact absurd hnil (digits_ne_nil _)
  · rename_i c cs hplus
    have hmem : '+' ∈ digits n.toNat := by simp [hplus]
    obtain ⟨d, hd, hc⟩ := mem_digits hmem
    exact absurd hc.symm (digitChar_ne_plus hd)
  · rw [hscan]
    simp [Functor.map, Except.map]

/-! ## Decoration -/

/-- A front part is not touched by trimming at the end if its own end is not decoration. -/
theorem dropTrailing_append {p : Char → Bool} {xs ys : List Char}
    (hx : ∀ c, xs.getLast? = some c → p c = false) (hy : ∀ c ∈ ys, p c = true) :
    dropTrailing p (xs ++ ys) = xs := by
  have hend : xs.reverse.dropWhile p = xs.reverse := by
    cases hr : xs.reverse with
    | nil => rfl
    | cons c cs =>
      have hc : p c = false := hx c (by simp [List.getLast?_eq_head?_reverse, hr])
      rw [List.dropWhile_cons_of_neg (by simp [hc])]
  rw [dropTrailing, List.reverse_append, List.dropWhile_append_of_pos (by simpa using hy), hend,
    List.reverse_reverse]

theorem dropWhile_append_head {p : Char → Bool} {xs ys : List Char}
    (hx : ∀ c, xs.head? = some c → p c = false) (hy : ∀ c ∈ ys, p c = true)
    (hne : xs ≠ []) : (ys ++ xs).dropWhile p = xs := by
  rw [List.dropWhile_append_of_pos hy]
  cases xs with
  | nil => exact absurd rfl hne
  | cons c cs => rw [List.dropWhile_cons_of_neg (by simp [hx c rfl])]

/-- Decoration at both ends comes off, down to a text that has none of its own. -/
theorem stripBoth_append {p : Char → Bool} {xs : List Char} (front back : List Char)
    (hhead : ∀ c, xs.head? = some c → p c = false) (hlast : ∀ c, xs.getLast? = some c → p c = false)
    (hfront : ∀ c ∈ front, p c = true) (hback : ∀ c ∈ back, p c = true) :
    stripBoth p (front ++ xs ++ back) = xs := by
  rw [stripBoth]
  cases hx : xs with
  | nil =>
    have hnil : (front ++ (back ++ [])).dropWhile p = [] := by
      rw [List.dropWhile_append_of_pos hfront, List.dropWhile_append_of_pos hback]
      rfl
    rw [List.append_nil] at hnil ⊢
    rw [hnil, dropTrailing_nil]
  | cons c cs =>
    rw [← hx]
    have hne : xs ++ back ≠ [] := by simp [hx]
    have hhead' : ∀ d, (xs ++ back).head? = some d → p d = false := by
      intro d hd
      exact hhead d (by simpa [hx] using hd)
    rw [List.append_assoc, dropWhile_append_head hhead' hfront hne]
    exact dropTrailing_append hlast hback

/-! ## Fields -/

/-- A field is what lies between blanks. -/
theorem nextField_append_blank (lead field : List Char) {rest : List Char} {c : Char}
    (hlead : ∀ x ∈ lead, isBlank x = true) (hne : field ≠ [])
    (hfield : ∀ x ∈ field, isBlank x = false) (hc : isBlank c = true) :
    nextField (lead ++ (field ++ c :: rest)) = some (field, c :: rest) := by
  have hhead : ∀ x, (field ++ c :: rest).head? = some x → isBlank x = false := by
    intro x hx
    cases field with
    | nil => exact absurd rfl hne
    | cons y ys =>
      cases hx
      exact hfield x List.mem_cons_self
  have hbody : trimStart (lead ++ (field ++ c :: rest)) = field ++ c :: rest :=
    dropWhile_append_head hhead hlead (by simp)
  have hdrop : (field ++ c :: rest).dropWhile (!isBlank ·) = c :: rest := by
    rw [List.dropWhile_append_of_pos (by simpa using hfield),
      List.dropWhile_cons_of_neg (by simp [hc])]
  have htake : (field ++ c :: rest).takeWhile (!isBlank ·) = field := by
    rw [List.takeWhile_append_of_pos (by simpa using hfield),
      List.takeWhile_cons_of_neg (by simp [hc]), List.append_nil]
  simp only [nextField, hbody, hdrop, htake, List.isEmpty_cons]
  rfl

/-- The fields of a line end in a character of their own, such as a bracket, and a blank follows. -/
theorem nextField_closed (lead front : List Char) {rest : List Char} {c : Char}
    (hlead : ∀ x ∈ lead, isBlank x = true) (hfront : ∀ x ∈ front, isBlank x = false)
    (hc : isBlank c = false) :
    nextField (lead ++ (front ++ [c] ++ ' ' :: rest)) = some (front ++ [c], ' ' :: rest) := by
  refine nextField_append_blank lead (front ++ [c]) hlead (by simp) ?_ rfl
  intro x hx
  rcases List.mem_append.1 hx with hx | hx
  · exact hfront x hx
  · rw [List.mem_singleton.1 hx]
    exact hc

end Text

/-! ## Events -/

/-- An event whose parts survive the reading of its wire form: nothing in it looks like the
decoration around it, and its level is written as the level that it is. -/
structure Event.Legible (e : Event) : Prop where
  level_blank : ∀ c ∈ e.level.token.toList, Text.isBlank c = false
  level_head : ∀ c, e.level.token.toList.head? = some c → c ≠ '<' ∧ c ≠ '>'
  level_last : ∀ c, e.level.token.toList.getLast? = some c → c ≠ '<' ∧ c ≠ '>'
  level_known : Level.ofToken e.level.token = e.level
  device_blank : ∀ c ∈ e.device.toList, Text.isBlank c = false
  device_last : ∀ c, e.device.toList.getLast? = some c → c ≠ ':'
  payload_ne : e.payload.toList ≠ []
  payload_head : ∀ c, e.payload.toList.head? = some c → Text.isBlank c = false
  payload_last : ∀ c, e.payload.toList.getLast? = some c → Text.isBlank c = false

/-- What the boards log at level `inf` is legible if its payload neither starts nor ends with a
blank. -/
theorem Event.legible_inf {time : UInt64} {r : Role} {payload : String} {c d : Char}
    (hhead : payload.toList.head? = some c) (hc : Text.isBlank c = false)
    (hlast : payload.toList.getLast? = some d) (hd : Text.isBlank d = false) :
    (⟨time, .inf, r.tag, payload⟩ : Event).Legible := by
  have hplain : ∀ {cs : List Char}, cs.all (!Text.isBlank ·) = true →
      ∀ c ∈ cs, Text.isBlank c = false := by
    intro cs h
    simpa using h
  have hlevel : (∀ c ∈ Level.inf.token.toList, Text.isBlank c = false) ∧
      Level.inf.token.toList.head? = some 'i' ∧ Level.inf.token.toList.getLast? = some 'f' :=
    ⟨hplain (by decide), by decide, by decide⟩
  have htag : (∀ c ∈ r.tag.toList, Text.isBlank c = false) ∧ r.tag.toList.getLast? ≠ some ':' := by
    cases r <;> exact ⟨hplain (by decide), by decide⟩
  -- the level and the device are fixed words, so that only the payload needs its hypotheses
  refine ⟨hlevel.1, ?_, ?_, rfl, htag.1, ?_, ?_, ?_, ?_⟩
  · intro x hx
    rw [hlevel.2.1] at hx
    exact Option.some.inj hx ▸ by decide
  · intro x hx
    rw [hlevel.2.2] at hx
    exact Option.some.inj hx ▸ by decide
  · rintro x hx rfl
    exact htag.2 hx
  · intro hnil
    rw [hnil] at hhead
    cases hhead
  · intro x hx
    rw [hhead] at hx
    exact Option.some.inj hx ▸ hc
  · intro x hx
    rw [hlast] at hx
    exact Option.some.inj hx ▸ hd

namespace Line

open Text

theorem toList_wire (e : Event) :
    e.wire.toList = [] ++ (('[' :: digits e.timeMs.toNat ++ [']']) ++ ' ' ::
      (('<' :: e.level.token.toList ++ ['>']) ++ ' ' ::
        ((e.device.toList ++ [':']) ++ ' ' :: e.payload.toList))) := by
  simp [Event.wire, decimal]

theorem not_isBanner_wire (e : Event) (back : List Char) :
    isBanner (e.wire.toList ++ back) = false := by
  rw [toList_wire]
  rfl

theorem plain_of_mem_digits {n : Nat} {c : Char} (h : c ∈ digits n) :
    isBlank c = false ∧ (c == '[' || c == ']') = false := by
  have hall : ∀ d : Fin 10,
      isBlank (digitChar d) = false ∧ (digitChar d == '[' || digitChar d == ']') = false := by
    decide
  obtain ⟨d, hd, rfl⟩ := mem_digits h
  exact hall ⟨d, hd⟩

/-- Blanks behind the wire form belong to none of the parts. -/
theorem parts?_wire_append {e : Event} (h : e.Legible) {back : List Char}
    (hback : ∀ c ∈ back, isBlank c = true) :
    parts? (e.wire.toList ++ back) = some {
      time := digits e.timeMs.toNat, level := e.level.token.toList,
      device := e.device.toList, payload := e.payload.toList } := by
  have hblank : ∀ c ∈ [' '], isBlank c = true := List.forall_mem_singleton.2 rfl
  have hline : e.wire.toList ++ back = [] ++ (('[' :: digits e.timeMs.toNat ++ [']']) ++ ' ' ::
      (('<' :: e.level.token.toList ++ ['>']) ++ ' ' ::
        ((e.device.toList ++ [':']) ++ ' ' :: (e.payload.toList ++ back)))) := by
    rw [toList_wire]
    simp
  -- the three fields, each off the front of what the one before it leaves
  have htime : nextField (e.wire.toList ++ back) =
      some ('[' :: digits e.timeMs.toNat ++ [']'], ' ' ::
        (('<' :: e.level.token.toList ++ ['>']) ++ ' ' ::
          ((e.device.toList ++ [':']) ++ ' ' :: (e.payload.toList ++ back)))) := by
    rw [hline]
    refine nextField_closed [] ('[' :: digits e.timeMs.toNat) (by simp) ?_ rfl
    exact List.forall_mem_cons.2 ⟨rfl, fun x hx => (plain_of_mem_digits hx).1⟩
  have hlevel : nextField (' ' :: (('<' :: e.level.token.toList ++ ['>']) ++ ' ' ::
        ((e.device.toList ++ [':']) ++ ' ' :: (e.payload.toList ++ back)))) =
      some ('<' :: e.level.token.toList ++ ['>'],
        ' ' :: ((e.device.toList ++ [':']) ++ ' ' :: (e.payload.toList ++ back))) := by
    refine nextField_closed [' '] ('<' :: e.level.token.toList) hblank ?_ rfl
    exact List.forall_mem_cons.2 ⟨rfl, h.level_blank⟩
  have hdevice : nextField (' ' :: ((e.device.toList ++ [':']) ++ ' ' ::
        (e.payload.toList ++ back))) =
      some (e.device.toList ++ [':'], ' ' :: (e.payload.toList ++ back)) :=
    nextField_closed [' '] e.device.toList hblank h.device_blank rfl
  -- what is left when the decoration is off
  have hpayload : trim (' ' :: (e.payload.toList ++ back)) = e.payload.toList :=
    stripBoth_append [' '] back h.payload_head h.payload_last hblank hback
  have hstamp : stripBoth (fun c => c == '[' || c == ']') ('[' :: digits e.timeMs.toNat ++ [']']) =
      digits e.timeMs.toNat := by
    refine stripBoth_append ['['] [']'] ?_ ?_ (by simp) (by simp)
    · intro c hc
      exact (plain_of_mem_digits (List.mem_of_mem_head? hc)).2
    · intro c hc
      exact (plain_of_mem_digits (List.mem_of_mem_getLast? hc)).2
  have htoken : stripBoth (fun c => c == '<' || c == '>') ('<' :: e.level.token.toList ++ ['>']) =
      e.level.token.toList := by
    refine stripBoth_append ['<'] ['>'] ?_ ?_ (by simp) (by simp)
    · intro c hc
      simpa using h.level_head c hc
    · intro c hc
      simpa using h.level_last c hc
  have hname : dropTrailing (· == ':') (e.device.toList ++ [':']) = e.device.toList := by
    refine dropTrailing_append ?_ (by simp)
    intro c hc
    simpa using h.device_last c hc
  have hne : e.payload.toList.isEmpty = false := by
    simpa using h.payload_ne
  simp only [parts?, htime, hlevel, hdevice, hpayload, hstamp, htoken, hname, Option.bind_eq_bind,
    Option.bind_some, hne]
  rfl

/-- **A line that was written from a legible event reads as that event**, also if there are blanks
at its end. -/
theorem parse_wire_append {e : Event} (h : e.Legible) {line : String} {back : List Char}
    (hback : ∀ c ∈ back, isBlank c = true) (hline : line.toList = e.wire.toList ++ back) :
    parse line = .ok (.event e) := by
  simp only [parse, hline, not_isBanner_wire, parts?_wire_append h hback, readCount_digits,
    String.ofList_toList, h.level_known]
  rfl

theorem parse_wire {e : Event} (h : e.Legible) : parse e.wire = .ok (.event e) :=
  parse_wire_append h (List.forall_mem_nil _) (List.append_nil _).symm

end Line

end BoardBench
