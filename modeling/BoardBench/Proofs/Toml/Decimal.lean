import BoardBench.Proofs.Event.Wire
import BoardBench.Toml.Document
import Mathlib.Algebra.Group.Nat.Defs

/-!
# Integers in TOML — a decimal number is read as the number it is

A value that begins with a digit may be a date, a float or an integer, and they are tried in this
order. Digits alone are no date, since a date has a hyphen or a colon behind the digits that it
begins with, and no float, since a float has a point or an exponent. **What is left is the integer
with these digits, if it fits into a signed word** (`Toml.scalar_digits`), and so is what is
assigned to a key (`Toml.statement_digits`).

The module exists because of the order in which the readers are tried. Each of them is a function
that fails somewhere in the middle, and to show that a text is left to the third one is to show
where the first two fail on it. The characters that would have let them go on are listed once
(`marks`); that a digit is none of them is all that is used of digits in these parts.
-/

set_option autoImplicit false

namespace BoardBench.Toml

open Text (digitChar digits)

/-- There are decimal digits and nothing else. -/
def AllDigits (cs : List Char) : Prop :=
  ∀ c ∈ cs, ∃ d < 10, c = digitChar d

variable {cs out : List Char} {c : Char} {d n : Nat}

theorem allDigits_digits (n : Nat) : AllDigits (digits n) :=
  fun _ h => Text.mem_digits h

theorem AllDigits.tail (h : AllDigits (c :: cs)) : AllDigits cs :=
  fun _ hmem => h _ (List.mem_cons_of_mem _ hmem)

theorem AllDigits.drop (h : AllDigits cs) (k : Nat) : AllDigits (cs.drop k) :=
  fun _ hmem => h _ (List.mem_of_mem_drop hmem)

/-- The marks that tell other values from an integer in decimal digits. -/
def marks : List Char :=
  ['"', '\'', 't', 'f', '[', '\x7b', '+', '-', '_', '.', ':', 'e', 'E', 'i', 'n', 'x', 'o', 'b']

theorem digitChar_notMem_marks (h : d < 10) : digitChar d ∉ marks := by
  have hall : ∀ d : Fin 10, digitChar d ∉ marks := by decide
  exact hall ⟨d, h⟩

theorem AllDigits.notMem (h : AllDigits cs) (hc : c ∈ marks) : c ∉ cs := by
  intro hmem
  obtain ⟨d, hd, rfl⟩ := h c hmem
  exact digitChar_notMem_marks hd hc

theorem AllDigits.ne_cons (h : AllDigits cs) (hc : c ∈ marks) : cs ≠ c :: out :=
  fun heq => h.notMem hc (heq ▸ List.mem_cons_self)

theorem AllDigits.ne_cons_cons {c' : Char} (h : AllDigits cs) (hc : c ∈ marks) :
    cs ≠ c' :: c :: out :=
  fun heq => h.notMem hc (heq ▸ List.mem_cons_of_mem _ List.mem_cons_self)

/-- No name of a value begins like digits. -/
theorem isPrefixOf_of_allDigits (h : AllDigits cs) (hc : c ∈ marks) :
    (c :: out).isPrefixOf cs = false := by
  cases cs with
  | nil => rfl
  | cons c' cs =>
    have hne : (c == c') = false := beq_false_of_ne fun heq => h.ne_cons hc (by rw [heq])
    rw [List.isPrefixOf_cons_cons, hne, Bool.false_and]

theorem digitIn?_digitChar (h : d < 10) : digitIn? 10 (digitChar d) = some d := by
  have hall : ∀ d : Fin 10, digitIn? 10 (digitChar d) = some d.val := by decide
  exact hall ⟨d, h⟩

/-! ## The digits of an integer -/

theorem digitRun_of_allDigits (h : AllDigits (c :: cs)) :
    digitRun 10 (c :: cs) = some (c :: cs, []) := by
  induction cs generalizing c with
  | nil =>
    obtain ⟨d, hd, rfl⟩ := h c List.mem_cons_self
    rw [digitRun, digitIn?_digitChar hd]
    rfl
  | cons c' cs ih =>
    obtain ⟨d, hd, rfl⟩ := h c List.mem_cons_self
    obtain ⟨d', hd', rfl⟩ := h c' (List.mem_cons_of_mem _ List.mem_cons_self)
    have hplain : digitChar d' ≠ '_' :=
      fun heq => digitChar_notMem_marks hd' (heq ▸ by decide)
    rw [digitRun, digitIn?_digitChar hd, digitIn?_digitChar hd', if_neg hplain, ih h.tail]
    rfl

theorem numberIn?_digits (n : Nat) : numberIn? 10 (digits n) = some n := by
  fun_induction digits n with
  | case1 n hn =>
    rw [numberIn?, List.foldlM_cons, digitIn?_digitChar hn]
    simp
  | case2 n hn ih =>
    have hlast : n % 10 < 10 := Nat.mod_lt n (by decide)
    have hvalue : 10 * (n / 10) + n % 10 = n := Nat.div_add_mod n 10
    rw [numberIn?] at ih ⊢
    rw [List.foldlM_append, ih, Option.bind_eq_bind, Option.bind_some, List.foldlM_cons,
      digitIn?_digitChar hlast]
    simp [hvalue]

/-- Only zero begins with the digit zero. -/
theorem digits_head_ne_zero (hn : 0 < n) : (digits n).head? ≠ some '0' := by
  fun_induction digits n with
  | case1 n hlt =>
    have hall : ∀ d : Fin 10, 0 < d.val → digitChar d ≠ '0' := by decide
    simpa using hall ⟨n, hlt⟩ hn
  | case2 n hge ih =>
    obtain ⟨c, cs, hcons⟩ := List.exists_cons_of_ne_nil (Text.digits_ne_nil (n / 10))
    rw [hcons] at ih ⊢
    exact ih (by omega)

theorem digits_zero : digits 0 = ['0'] := by
  rw [digits, if_pos (by decide)]
  rfl

theorem wholeDigits_digits (n : Nat) : wholeDigits (digits n) = some (digits n, []) := by
  obtain ⟨c, cs, hcons⟩ := List.exists_cons_of_ne_nil (Text.digits_ne_nil n)
  have hrun := digitRun_of_allDigits (hcons ▸ allDigits_digits n)
  unfold wholeDigits
  split
  · rename_i cs' heq
    rcases Nat.eq_zero_or_pos n with rfl | hn
    · rw [digits_zero] at heq ⊢
      cases heq
      rfl
    · exact absurd (congrArg List.head? heq) (digits_head_ne_zero hn)
  · rw [hcons, hrun]

theorem sign_of_allDigits (h : AllDigits cs) : sign cs = (false, cs) := by
  unfold sign
  split
  · exact absurd rfl (h.ne_cons (by decide))
  · exact absurd rfl (h.ne_cons (by decide))
  · rfl

/-! ## What digits are not -/

/-- A number of fixed width in front of digits leaves digits. -/
theorem field_of_allDigits {width low high : Nat} (h : AllDigits cs)
    (hfield : field width low high cs = some (n, out)) : AllDigits out := by
  unfold field at hfield
  dsimp only at hfield
  split at hfield
  · cases hfield
  · obtain ⟨m, -, hm⟩ := Option.bind_eq_some_iff.1 hfield
    split at hm
    · cases hm
      exact h.drop width
    · cases hm

theorem expect_of_allDigits (h : AllDigits cs) (hc : c ∈ marks) : expect c cs = none := by
  cases cs with
  | nil => rfl
  | cons c' cs =>
    rw [expect, if_neg]
    rintro rfl
    exact h.notMem hc List.mem_cons_self

theorem date_of_allDigits (h : AllDigits cs) : date cs = none := by
  have hcalendar : calendarDate cs = none := by
    unfold calendarDate
    cases hyear : field 4 0 9999 cs with
    | none => rfl
    | some p =>
      have hhyphen := expect_of_allDigits (c := '-') (field_of_allDigits h hyear) (by decide)
      simp only [Option.bind_eq_bind, Option.bind_some, hhyphen, Option.bind_none]
  have hclock : clockTime cs = none := by
    unfold clockTime
    cases hhour : field 2 0 23 cs with
    | none => rfl
    | some p =>
      have hcolon := expect_of_allDigits (c := ':') (field_of_allDigits h hhour) (by decide)
      simp only [Option.bind_eq_bind, Option.bind_some, hcolon, Option.bind_none]
  rw [date, hcalendar]
  dsimp only
  rw [hclock]
  rfl

theorem float_digits (n : Nat) : float (digits n) = none := by
  have hsign := sign_of_allDigits (allDigits_digits n)
  have hparts : floatParts (digits n) = none := by
    rw [floatParts, hsign]
    dsimp only
    rw [wholeDigits_digits]
    rfl
  have hinf : ['i', 'n', 'f'].isPrefixOf (digits n) = false :=
    isPrefixOf_of_allDigits (allDigits_digits n) (by decide)
  have hnan : ['n', 'a', 'n'].isPrefixOf (digits n) = false :=
    isPrefixOf_of_allDigits (allDigits_digits n) (by decide)
  rw [float, hsign]
  dsimp only
  rw [hinf, hnan, hparts]
  rfl

theorem integer_digits (h : n < 2 ^ 63) : integer (digits n) = some ((n : Int), []) := by
  have halldigits := allDigits_digits n
  have hrange : inRange n = true := by
    rw [inRange, Int64.toInt_minValue, Int64.toInt_maxValue]
    simp
    omega
  unfold integer
  dsimp only
  split
  · exact absurd ‹_› (halldigits.ne_cons_cons (by decide))
  · exact absurd ‹_› (halldigits.ne_cons_cons (by decide))
  · exact absurd ‹_› (halldigits.ne_cons_cons (by decide))
  · rw [sign_of_allDigits halldigits]
    dsimp only
    rw [wholeDigits_digits]
    simp only [Option.bind_eq_bind, Option.bind_some, numberIn?_digits]
    exact if_pos hrange

/-- **Digits are read as an integer**, if it fits into a signed word. -/
theorem scalar_digits (h : n < 2 ^ 63) : scalar (digits n) = some (.integer n, []) := by
  have halldigits := allDigits_digits n
  unfold scalar
  split
  · exact absurd ‹_› (halldigits.ne_cons (by decide))
  · exact absurd ‹_› (halldigits.ne_cons (by decide))
  · exact absurd ‹_› (halldigits.ne_cons (by decide))
  · exact absurd ‹_› (halldigits.ne_cons (by decide))
  · rw [date_of_allDigits halldigits]
    dsimp only
    rw [float_digits]
    dsimp only
    rw [integer_digits h]
    rfl

/-- **A value of digits alone is that integer**, however deep values may nest. -/
theorem value_digits (depth : Nat) (h : n < 2 ^ 63) :
    value depth (digits n) = some (.integer n, []) := by
  have halldigits := allDigits_digits n
  unfold value
  split
  · exact absurd ‹_› (halldigits.ne_cons (by decide))
  · exact absurd ‹_› (halldigits.ne_cons (by decide))
  · exact scalar_digits h

theorem skipSpaces_digits (n : Nat) : skipSpaces (' ' :: digits n) = digits n := by
  obtain ⟨c, cs, hcons⟩ := List.exists_cons_of_ne_nil (Text.digits_ne_nil n)
  obtain ⟨d, hd, rfl⟩ := allDigits_digits n c (hcons ▸ List.mem_cons_self)
  have hall : ∀ d : Fin 10, isSpace (digitChar d) = false := by decide
  have hplain : isSpace (digitChar d) = false := hall ⟨d, hd⟩
  rw [hcons, skipSpaces, List.dropWhile_cons_of_pos rfl, List.dropWhile_cons_of_neg]
  rw [hplain]
  exact Bool.false_ne_true

/-- An assignment that ends with digits assigns that integer. -/
theorem statement_digits {path : List String} (h : n < 2 ^ 63) (hhead : cs.head? ≠ some '[')
    (hkey : key cs = some (path, '=' :: ' ' :: digits n)) :
    statement cs = some (.assignment path (.integer n), []) := by
  have hexpect : expect '=' ('=' :: ' ' :: digits n) = some (' ' :: digits n) := by
    rw [expect, if_pos rfl]
  have hassignment : assignment (value (nestingLimit - 1)) cs = some ((path, .integer n), []) := by
    rw [assignment, hkey]
    simp only [Option.bind_eq_bind, Option.bind_some, hexpect, skipSpaces_digits,
      value_digits _ h]
  unfold statement
  split
  · exact absurd rfl hhead
  · exact absurd rfl hhead
  · rw [hassignment]
    rfl

/-- What a line that says something does not begin with. -/
def fillers : List Char := [' ', '\t', '#', '\n', '\r']

theorem skipSpaces_of_notMem (hc : c ∉ fillers) : skipSpaces (c :: cs) = c :: cs := by
  have hspace : ¬isSpace c = true := by
    intro hspace
    rcases Bool.or_eq_true_iff.1 hspace with hspace | hspace
    · exact hc (by rw [eq_of_beq hspace]; decide)
    · exact hc (by rw [eq_of_beq hspace]; decide)
  exact List.dropWhile_cons_of_neg hspace

theorem lineEnd_of_notMem (hc : c ∉ fillers) : lineEnd (c :: cs) = none := by
  unfold lineEnd
  rw [skipSpaces_of_notMem hc]
  have hcomment : c ≠ '#' := fun heq => hc (by rw [heq]; decide)
  have hfeed : c ≠ '\n' := fun heq => hc (by rw [heq]; decide)
  have hreturn : c ≠ '\r' := fun heq => hc (by rw [heq]; decide)
  simp [newline?, hcomment, hfeed, hreturn]

/-- A statement that stands at the front is read first. -/
theorem statements_cons {rest : List Char} {s : Statement} {ss : List Statement}
    (hhead : cs.head? = some c) (hc : c ∉ fillers) (hs : statement cs = some (s, rest))
    (hlt : rest.length < cs.length) (hrest : statements rest = some ss) :
    statements cs = some (s :: ss) := by
  obtain ⟨cs, rfl⟩ := List.head?_eq_some_iff.1 hhead
  rw [statements, skipSpaces_of_notMem hc]
  dsimp only
  rw [lineEnd_of_notMem hc]
  dsimp only
  rw [hs]
  simp only [Option.bind_eq_bind, Option.bind_some, hlt, hrest]
  rfl

end BoardBench.Toml
