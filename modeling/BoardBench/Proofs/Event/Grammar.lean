import BoardBench.Proofs.Event.Wire
import Mathlib.Data.List.TakeWhile
import Mathlib.Data.Nat.Digits.Defs

/-!
# The grammar of lines — what is read from a line, said of the line as a whole

The reader peels a line off from its front, one field after the other. Here it is said without
peeling what it finds: a line has its `Text.runs`, which are the maximal pieces without blanks;
`Line.Cut` says what the first three of them are and what lies from the fourth one to the last
character that is not blank; `Text.IsCount` says which texts are 64-bit counts and of which value;
and `Text.StripsTo` says what a text is without its decoration.

**Every line is classified by these** (`Line.every_line_is_classified`): it is a banner, or has
fewer than four runs, or has a first run that is no count, or is an event, and it is read as that.

What comes out is always legible, so that **an event and its wire form determine one another**
(`Line.wire_form_and_reading_agree`).

The grammar is independent of the reader on purpose. `runs` splits at all blanks at once, where the
reader trims and cuts one field after the other; `StripsTo` is a relation, where the reader loops;
`IsCount` is about values, where the reader stops at the first character that does not fit. So the
classification says what a line *is*, and a mistake in the reader could not be repeated in it.

The payload is the difficulty. It begins where the fourth run begins, and it has blanks inside, so
that it is not made of runs. `Cut` locates it by the text in front of it, and `FrontField` is the
step in between: a field at the front of a text, said by how the text is cut and not by how the cut
is found.
-/

set_option autoImplicit false

namespace BoardBench

namespace Text

/-! ## Runs -/

/-- The maximal pieces of a text without blanks, in order. -/
def runs (cs : List Char) : List (List Char) :=
  (cs.splitOnP isBlank).filter (!·.isEmpty)

@[simp] theorem runs_nil : runs [] = [] := by
  simp [runs]

/-- A text comes apart at a blank. -/
theorem runs_append_blank {c : Char} (hc : isBlank c = true) (xs ys : List Char) :
    runs (xs ++ c :: ys) = runs xs ++ runs ys := by
  rw [runs, List.splitOnP_append_cons xs ys hc, List.filter_append]
  rfl

theorem runs_blank_cons {c : Char} (hc : isBlank c = true) (cs : List Char) :
    runs (c :: cs) = runs cs := by
  simpa using runs_append_blank hc [] cs

/-- Without blanks it is one piece. -/
theorem runs_of_field {cs : List Char} (hne : cs ≠ []) (h : ∀ c ∈ cs, isBlank c = false) :
    runs cs = [cs] := by
  rw [runs, List.splitOnP_eq_singleton h]
  simp [hne]

/-- Blanks in front belong to no run … -/
theorem runs_blanks_append {lead : List Char} (h : ∀ c ∈ lead, isBlank c = true)
    (cs : List Char) : runs (lead ++ cs) = runs cs := by
  induction lead with
  | nil => rfl
  | cons c lead ih =>
    rw [List.cons_append, runs_blank_cons (h c List.mem_cons_self)]
    apply ih
    intro d hd
    exact h d (List.mem_cons_of_mem c hd)

/-- … a text of blanks has none … -/
theorem runs_of_blanks {cs : List Char} (h : ∀ c ∈ cs, isBlank c = true) : runs cs = [] := by
  have hnil := runs_blanks_append h []
  rwa [List.append_nil, runs_nil] at hnil

/-- … and neither do blanks at the end. -/
theorem runs_append_blanks {back : List Char} (h : ∀ c ∈ back, isBlank c = true)
    (cs : List Char) : runs (cs ++ back) = runs cs := by
  cases back with
  | nil => rw [List.append_nil]
  | cons c back =>
    have hback : runs back = [] := runs_of_blanks fun d hd => h d (List.mem_cons_of_mem c hd)
    rw [runs_append_blank (h c List.mem_cons_self), hback, List.append_nil]

theorem not_of_mem_splitOnP {p : Char → Bool} {cs piece : List Char}
    (h : piece ∈ cs.splitOnP p) : ∀ c ∈ piece, p c = false := by
  induction cs generalizing piece with
  | nil => simp_all
  | cons c cs ih =>
    rw [List.splitOnP_cons_eq_if_modifyHead] at h
    split at h
    · rcases List.mem_cons.1 h with rfl | h
      · simp
      · exact ih h
    · rename_i hc
      -- the character goes to the front of the first piece
      cases hsplit : cs.splitOnP p with
      | nil => exact absurd hsplit (List.splitOnP_ne_nil p cs)
      | cons first others =>
        rw [hsplit, List.modifyHead_cons] at h
        rcases List.mem_cons.1 h with rfl | h
        · refine List.forall_mem_cons.2 ⟨by simpa using hc, ih ?_⟩
          exact hsplit ▸ List.mem_cons_self
        · exact ih (hsplit ▸ List.mem_cons_of_mem first h)

/-- Runs have no blanks in them. -/
theorem plain_of_mem_runs {cs run : List Char} (h : run ∈ runs cs) :
    ∀ c ∈ run, isBlank c = false :=
  not_of_mem_splitOnP (List.mem_filter.1 h).1

/-! ## Fields -/

/-- A field at the front of a text: there are at most blanks before it, and behind it there is a
blank. -/
structure FrontField (cs field rest : List Char) : Prop where
  cut : ∃ lead, (∀ c ∈ lead, isBlank c = true) ∧ cs = lead ++ (field ++ rest)
  ne : field ≠ []
  plain : ∀ c ∈ field, isBlank c = false
  separated : ∃ c, rest.head? = some c ∧ isBlank c = true

/-- Trimming at the front stops at a character that is not blank. -/
theorem head?_trimStart {cs : List Char} {c : Char} (h : (trimStart cs).head? = some c) :
    isBlank c = false := by
  have hstop := List.head?_dropWhile_not isBlank cs
  rw [show cs.dropWhile isBlank = trimStart cs from rfl, h] at hstop
  exact hstop

/-- **The reader splits off the field at the front.** -/
theorem nextField_eq_some_iff {cs field rest : List Char} :
    nextField cs = some (field, rest) ↔ FrontField cs field rest := by
  constructor
  · intro h
    have hbody : field ++ rest = trimStart cs := nextField_append h
    simp only [nextField] at h
    split at h
    · cases h
    · rename_i hrest
      rw [List.isEmpty_iff] at hrest
      obtain ⟨hfield, hdrop⟩ := Prod.mk.inj (Option.some.inj h)
      obtain ⟨c, hc, hblank⟩ : ∃ c, rest.head? = some c ∧ isBlank c = true := by
        have hstop := List.head_dropWhile_not (!isBlank ·) hrest
        rw [Bool.not_eq_false'] at hstop
        exact ⟨_, hdrop ▸ List.head?_eq_some_head hrest, hstop⟩
      refine ⟨⟨cs.takeWhile isBlank, fun c hc => List.mem_takeWhile_imp hc, ?_⟩, ?_, ?_,
        c, hc, hblank⟩
      · rw [hbody]
        exact List.takeWhile_append_dropWhile.symm
      · intro hnil
        -- the rest would be the whole trimmed text, which does not start with a blank
        rw [hnil, List.nil_append] at hbody
        rw [hbody] at hc
        simp [head?_trimStart hc] at hblank
      · intro d hd
        rw [← hfield] at hd
        simpa using List.mem_takeWhile_imp hd
  · rintro ⟨⟨lead, hlead, rfl⟩, hne, hplain, c, hc, hblank⟩
    cases rest with
    | nil => simp at hc
    | cons d rest =>
      cases hc
      exact nextField_append_blank lead field hlead hne hplain hblank

/-- Where no field can be split off, there is at most one run, and the text ends with it. -/
theorem exists_blanks_append_of_nextField_eq_none {cs : List Char} (h : nextField cs = none) :
    ∃ lead body, (∀ c ∈ lead, isBlank c = true) ∧ (∀ c ∈ body, isBlank c = false) ∧
      cs = lead ++ body := by
  refine ⟨cs.takeWhile isBlank, trimStart cs, fun c hc => List.mem_takeWhile_imp hc, ?_,
    List.takeWhile_append_dropWhile.symm⟩
  simp only [nextField] at h
  split at h
  · rename_i hrest
    rw [List.isEmpty_iff, List.dropWhile_eq_nil_iff] at hrest
    intro c hc
    simpa using hrest c hc
  · cases h

namespace FrontField

variable {cs field rest : List Char}

/-- The field is the first run. -/
theorem runs_eq (h : FrontField cs field rest) : runs cs = field :: runs rest := by
  obtain ⟨⟨lead, hlead, rfl⟩, hne, hplain, c, hc, hblank⟩ := h
  rw [runs_blanks_append hlead]
  cases rest with
  | nil => simp at hc
  | cons d rest =>
    cases hc
    rw [runs_append_blank hblank, runs_of_field hne hplain, runs_blank_cons hblank]
    rfl

/-- The end of the text is the end of what follows. -/
theorem getLast?_eq (h : FrontField cs field rest) : cs.getLast? = rest.getLast? := by
  obtain ⟨⟨lead, -, rfl⟩, -, -, c, hc, -⟩ := h
  cases rest with
  | nil => simp at hc
  | cons d rest => simp [List.getLast?_append, List.getLast?_cons]

/-- What is added at the end is added to what follows … -/
theorem append (h : FrontField cs field rest) (more : List Char) :
    FrontField (cs ++ more) field (rest ++ more) := by
  obtain ⟨⟨lead, hlead, rfl⟩, hne, hplain, c, hc, hblank⟩ := h
  refine ⟨⟨lead, hlead, by simp⟩, hne, hplain, c, ?_, hblank⟩
  rw [List.head?_append, hc, Option.some_or]

/-- … and something may be taken from the end, but not all that follows. -/
theorem split {front more : List Char} (h : FrontField cs field (front ++ more))
    (hne : front ≠ []) : ∃ whole, cs = whole ++ more ∧ FrontField whole field front := by
  obtain ⟨⟨lead, hlead, rfl⟩, hfield, hplain, c, hc, hblank⟩ := h
  refine ⟨lead ++ (field ++ front), by simp, ⟨lead, hlead, rfl⟩, hfield, hplain, c, ?_, hblank⟩
  obtain ⟨d, front, rfl⟩ := List.exists_cons_of_ne_nil hne
  exact hc

theorem ne_nil (h : FrontField cs field rest) : cs ≠ [] := by
  obtain ⟨⟨lead, -, rfl⟩, hne, -⟩ := h
  simp [hne]

end FrontField

/-- Without runs there are only blanks. -/
theorem blank_of_runs_eq_nil {cs : List Char} (h : runs cs = []) : ∀ c ∈ cs, isBlank c = true := by
  cases hfield : nextField cs with
  | none =>
    obtain ⟨lead, body, hlead, hbody, rfl⟩ := exists_blanks_append_of_nextField_eq_none hfield
    cases hnil : body with
    | nil => rwa [List.append_nil]
    | cons c body' =>
      have hne : body ≠ [] := by simp [hnil]
      rw [runs_blanks_append hlead, runs_of_field hne hbody] at h
      cases h
  | some cut =>
    rw [(nextField_eq_some_iff.1 hfield).runs_eq] at h
    cases h

/-- A text that ends in a blank and has a run has a field in front. -/
theorem exists_frontField {cs field : List Char} {fields : List (List Char)}
    (hruns : runs cs = field :: fields) {c : Char} (hend : cs.getLast? = some c)
    (hc : isBlank c = true) :
    ∃ rest, FrontField cs field rest ∧ runs rest = fields := by
  cases hfield : nextField cs with
  | none =>
    obtain ⟨lead, body, hlead, hbody, rfl⟩ := exists_blanks_append_of_nextField_eq_none hfield
    cases hlast : body.getLast? with
    | none =>
      rw [List.getLast?_eq_none_iff.1 hlast, List.append_nil, runs_of_blanks hlead] at hruns
      cases hruns
    | some d =>
      -- the last character would be one of the run
      rw [List.getLast?_append, hlast, Option.some_or] at hend
      cases hend
      simp [hbody c (List.mem_of_getLast? hlast)] at hc
  | some cut =>
    have hfront : FrontField cs cut.1 cut.2 := nextField_eq_some_iff.1 hfield
    rw [hfront.runs_eq] at hruns
    obtain ⟨rfl, rfl⟩ := List.cons.inj hruns
    exact ⟨cut.2, hfront, rfl⟩

theorem length_runs_le_of_nextField_eq_none {cs : List Char} (h : nextField cs = none) :
    (runs cs).length ≤ 1 := by
  obtain ⟨lead, body, hlead, hbody, rfl⟩ := exists_blanks_append_of_nextField_eq_none h
  rw [runs_blanks_append hlead]
  by_cases hne : body = []
  · simp [hne]
  · simp [runs_of_field hne hbody]

/-! ## Decoration -/

/-- What is left of a text when its decoration is off: there is decoration before it and behind it,
and it neither starts nor ends with some. -/
structure StripsTo (p : Char → Bool) (cs bare : List Char) : Prop where
  cut : ∃ front back, cs = front ++ bare ++ back ∧ (∀ c ∈ front, p c = true) ∧
    ∀ c ∈ back, p c = true
  head : ∀ c, bare.head? = some c → p c = false
  last : ∀ c, bare.getLast? = some c → p c = false

/-- The same for decoration at the end only. -/
structure TrimsTo (p : Char → Bool) (cs bare : List Char) : Prop where
  cut : ∃ back, cs = bare ++ back ∧ ∀ c ∈ back, p c = true
  last : ∀ c, bare.getLast? = some c → p c = false

variable {p : Char → Bool} {cs bare : List Char}

theorem dropTrailing_eq_iff : dropTrailing p cs = bare ↔ TrimsTo p cs bare := by
  constructor
  · rintro rfl
    refine ⟨⟨_, (dropTrailing_append_dropped p cs).symm, ?_⟩, ?_⟩
    · intro c hc
      exact List.mem_takeWhile_imp (List.mem_reverse.1 hc)
    · intro c hc
      rw [dropTrailing, List.getLast?_reverse] at hc
      have hstop := List.head?_dropWhile_not p cs.reverse
      rw [hc] at hstop
      exact hstop
  · rintro ⟨⟨back, rfl, hback⟩, hlast⟩
    exact dropTrailing_append hlast hback

theorem stripBoth_eq_iff : stripBoth p cs = bare ↔ StripsTo p cs bare := by
  constructor
  · intro h
    obtain ⟨⟨back, hcut, hback⟩, hlast⟩ := dropTrailing_eq_iff.1 h
    refine ⟨⟨cs.takeWhile p, back, ?_, fun c hc => List.mem_takeWhile_imp hc, hback⟩, ?_, hlast⟩
    · rw [List.append_assoc, ← hcut]
      exact List.takeWhile_append_dropWhile.symm
    · intro c hc
      have hstop := List.head?_dropWhile_not p cs
      rw [hcut, List.head?_append, hc] at hstop
      exact hstop
  · rintro ⟨⟨front, back, rfl, hfront, hback⟩, hhead, hlast⟩
    exact stripBoth_append front back hhead hlast hfront hback

/-- Something is left exactly if there is a run. -/
theorem trim_eq_nil_iff : trim cs = [] ↔ runs cs = [] := by
  constructor
  · intro h
    obtain ⟨⟨front, back, rfl, hfront, hback⟩, -, -⟩ := stripBoth_eq_iff.1 h
    rw [runs_append_blanks hback, List.append_nil, runs_of_blanks hfront]
  · intro h
    exact stripBoth_eq_iff.2 ⟨⟨cs, [], by simp, blank_of_runs_eq_nil h, by simp⟩, by simp, by simp⟩

/-! ## Counts -/

/-- The value of a sequence of decimal digits. -/
def decimalValue (cs : List Char) : Nat :=
  Nat.ofDigits 10 (cs.reverse.map fun c => c.toNat - '0'.toNat)

theorem decimalValue_cons (c : Char) (cs : List Char) :
    decimalValue (c :: cs) = (c.toNat - '0'.toNat) * 10 ^ cs.length + decimalValue cs := by
  simp only [decimalValue, List.reverse_cons, List.map_append, Nat.ofDigits_append,
    List.length_map, List.length_reverse, List.map_cons, List.map_nil, Nat.ofDigits_singleton]
  rw [Nat.mul_comm, Nat.add_comm]

/-- A text that says how many: ASCII digits, at least one, after at most one plus sign, of a value
below `2 ^ 64`. -/
def IsCount (cs : List Char) (n : Nat) : Prop :=
  ∃ sign ds, cs = sign ++ ds ∧ (sign = [] ∨ sign = ['+']) ∧ ds ≠ [] ∧
    (∀ c ∈ ds, '0' ≤ c ∧ c ≤ '9') ∧ decimalValue ds = n ∧ n < 2 ^ 64

/-- The invariant of the scan: the digits read so far are worth `v`. -/
theorem scanDigits_eq_ok_iff {v n : Nat} {ds : List Char} (hv : v < UInt64.size) :
    scanDigits v ds = .ok n ↔ (∀ c ∈ ds, '0' ≤ c ∧ c ≤ '9') ∧
      v * 10 ^ ds.length + decimalValue ds = n ∧ n < UInt64.size := by
  induction ds generalizing v with
  | nil =>
    simp only [scanDigits, decimalValue, Except.ok.injEq, List.length_nil, Nat.pow_zero,
      Nat.mul_one]
    constructor
    · rintro rfl
      exact ⟨by simp, rfl, hv⟩
    · rintro ⟨-, hn, -⟩
      exact hn
  | cons c ds ih =>
    rw [scanDigits, digitValue?, decimalValue_cons, List.forall_mem_cons, List.length_cons]
    have hdigit : isDecimalDigit c = true ↔ '0' ≤ c ∧ c ≤ '9' := decide_eq_true_iff
    by_cases hc : '0' ≤ c ∧ c ≤ '9'
    · have hvalue : v * 10 ^ (ds.length + 1) +
          ((c.toNat - '0'.toNat) * 10 ^ ds.length + decimalValue ds) =
          (10 * v + (c.toNat - 48)) * 10 ^ ds.length + decimalValue ds := by
        rw [show '0'.toNat = 48 from rfl]
        ring
      rw [if_pos (hdigit.2 hc), hvalue]
      dsimp only
      by_cases hlt : 10 * v + (c.toNat - 48) < UInt64.size
      · rw [if_pos hlt, ih hlt]
        simp only [hc, true_and, and_self]
      · -- more digits do not bring the value down again
        have hle : 10 * v + (c.toNat - 48) ≤ (10 * v + (c.toNat - 48)) * 10 ^ ds.length :=
          Nat.le_mul_of_pos_right _ (Nat.pow_pos (by decide))
        rw [if_neg hlt]
        constructor
        · intro h
          cases h
        · rintro ⟨-, rfl, hn⟩
          omega
    · rw [if_neg (mt hdigit.1 hc)]
      constructor
      · intro h
        cases h
      · rintro ⟨⟨h, -⟩, -⟩
        exact absurd h hc

theorem map_ofNat_scanDigits_eq_ok_iff {ds : List Char} {n : UInt64} :
    UInt64.ofNat <$> scanDigits 0 ds = .ok n ↔
      (∀ c ∈ ds, '0' ≤ c ∧ c ≤ '9') ∧ decimalValue ds = n.toNat := by
  constructor
  · intro h
    cases hscan : scanDigits 0 ds with
    | error reason =>
      rw [hscan] at h
      cases h
    | ok k =>
      rw [hscan] at h
      cases h
      obtain ⟨hdigits, hvalue, hlt⟩ := (scanDigits_eq_ok_iff (by decide)).1 hscan
      rw [Nat.zero_mul, Nat.zero_add] at hvalue
      rw [UInt64.toNat_ofNat_of_lt' hlt]
      exact ⟨hdigits, hvalue⟩
  · rintro ⟨hdigits, hvalue⟩
    have hscan : scanDigits 0 ds = .ok n.toNat := by
      refine (scanDigits_eq_ok_iff (by decide)).2 ⟨hdigits, ?_, n.toNat_lt⟩
      rw [Nat.zero_mul, Nat.zero_add, hvalue]
    rw [hscan]
    exact congrArg Except.ok UInt64.ofNat_toNat

/-- **The reader of counts accepts these texts and no others, and gets their value.** -/
theorem readCount_eq_ok_iff {cs : List Char} {n : UInt64} :
    readCount cs = .ok n ↔ IsCount cs n.toNat := by
  constructor
  · intro h
    unfold readCount at h
    split at h
    · cases h
    · rename_i c cs
      obtain ⟨hdigits, hvalue⟩ := map_ofNat_scanDigits_eq_ok_iff.1 h
      exact ⟨['+'], c :: cs, rfl, .inr rfl, by simp, hdigits, hvalue, n.toNat_lt⟩
    · rename_i hne _
      obtain ⟨hdigits, hvalue⟩ := map_ofNat_scanDigits_eq_ok_iff.1 h
      exact ⟨[], cs, rfl, .inl rfl, hne, hdigits, hvalue, n.toNat_lt⟩
  · rintro ⟨sign, ds, rfl, hsign, hne, hdigits, hvalue, -⟩
    obtain ⟨d, ds, rfl⟩ := List.exists_cons_of_ne_nil hne
    have hread := map_ofNat_scanDigits_eq_ok_iff.2 ⟨hdigits, hvalue⟩
    rcases hsign with rfl | rfl
    · have hd : d ≠ '+' := by
        rintro rfl
        exact absurd (hdigits '+' List.mem_cons_self) (by decide)
      rw [List.nil_append, readCount]
      · exact hread
      · simp
      · intro c cs h
        exact hd (List.cons.inj h).1
    · exact hread

theorem readCount_eq_error_iff {cs : List Char} :
    (∃ reason, readCount cs = .error reason) ↔ ∀ n, ¬ IsCount cs n := by
  cases hread : readCount cs with
  | ok n =>
    simp only [reduceCtorEq, exists_false, false_iff, not_forall, not_not]
    exact ⟨n.toNat, readCount_eq_ok_iff.1 hread⟩
  | error reason =>
    simp only [Except.error.injEq, exists_eq', true_iff]
    intro n hn
    obtain ⟨-, -, -, -, -, -, -, hlt⟩ := id hn
    rw [← UInt64.toNat_ofNat_of_lt' hlt, ← readCount_eq_ok_iff, hread] at hn
    cases hn

end Text

/-! ## Events -/

/-- A level is read back from its token unless it is a known one spelled out as an unknown one. -/
theorem Level.ofToken_token_iff {l : Level} : Level.ofToken l.token = l ↔
    ∀ token, l = .other token → token ∉ ["err", "wrn", "inf", "dbg"] := by
  cases l with
  | other token =>
    simp only [Level.token, Level.other.injEq, forall_eq']
    by_cases hknown : token ∈ ["err", "wrn", "inf", "dbg"]
    · simp only [List.mem_cons, List.not_mem_nil, or_false] at hknown
      rcases hknown with rfl | rfl | rfl | rfl <;> simp [Level.ofToken]
    · simp_all [Level.ofToken]
  | _ => simp [Level.token, Level.ofToken]

theorem Event.Legible.lastChar_ne_none {e : Event} (h : e.Legible) : e.lastChar ≠ none := by
  rw [Event.lastChar, Ne, List.getLast?_eq_none_iff]
  exact h.payload_ne

/-! ## Lines -/

namespace Line

open Text

/-- What an event line is made of: its first three runs, and what lies from the beginning of the
fourth run to the last character that is not blank. -/
structure Cut (cs time level device payload : List Char) : Prop where
  runs_eq : runs cs = time :: level :: device :: runs payload
  cut : ∃ front back, cs = front ++ payload ++ back ∧ runs front = [time, level, device] ∧
    (∃ c, front.getLast? = some c ∧ isBlank c = true) ∧ ∀ c ∈ back, isBlank c = true
  ne : payload ≠ []
  head : ∀ c, payload.head? = some c → isBlank c = false
  last : ∀ c, payload.getLast? = some c → isBlank c = false

/-- The parts of an event line without their decoration. -/
structure Parts.Of (p : Parts) (time level device payload : List Char) : Prop where
  time : StripsTo (fun c => c == '[' || c == ']') time p.time
  level : StripsTo (fun c => c == '<' || c == '>') level p.level
  device : TrimsTo (· == ':') device p.device
  payload : p.payload = payload

/-- Three fields off the front, and behind them something that is not only blank. -/
theorem cut_of_frontField {cs time rest₁ level rest₂ device rest₃ payload : List Char}
    (htime : FrontField cs time rest₁) (hlevel : FrontField rest₁ level rest₂)
    (hdevice : FrontField rest₂ device rest₃) (hpayload : StripsTo isBlank rest₃ payload)
    (hne : payload ≠ []) : Cut cs time level device payload := by
  obtain ⟨⟨lead, back, rfl, hlead, hback⟩, hhead, hlast⟩ := hpayload
  -- the blank that ends the third field is in front of the payload
  have hlead_ne : lead ≠ [] := by
    rintro rfl
    obtain ⟨c, hc, hblank⟩ := hdevice.separated
    obtain ⟨d, payload, rfl⟩ := List.exists_cons_of_ne_nil hne
    cases hc
    simp [hhead c rfl] at hblank
  rw [List.append_assoc] at hdevice
  obtain ⟨front₂, rfl, hdevice'⟩ := hdevice.split hlead_ne
  obtain ⟨front₁, rfl, hlevel'⟩ := hlevel.split hdevice'.ne_nil
  obtain ⟨front, rfl, htime'⟩ := htime.split hlevel'.ne_nil
  refine ⟨?_, ⟨front, back, ?_, ?_, ?_, hback⟩, hne, hhead, hlast⟩
  · rw [htime.runs_eq, hlevel.runs_eq, hdevice.runs_eq, runs_blanks_append hlead,
      runs_append_blanks hback]
  · rw [List.append_assoc]
  · rw [htime'.runs_eq, hlevel'.runs_eq, hdevice'.runs_eq, runs_of_blanks hlead]
  · refine ⟨lead.getLast hlead_ne, ?_, hlead _ (List.getLast_mem hlead_ne)⟩
    rw [htime'.getLast?_eq, hlevel'.getLast?_eq, hdevice'.getLast?_eq,
      List.getLast?_eq_some_getLast hlead_ne]

theorem Cut.exists_frontField {cs time level device payload : List Char}
    (h : Cut cs time level device payload) : ∃ rest₁ rest₂ rest₃, FrontField cs time rest₁ ∧
      FrontField rest₁ level rest₂ ∧ FrontField rest₂ device rest₃ ∧ trim rest₃ = payload := by
  obtain ⟨-, ⟨front, back, rfl, hfront, ⟨c, hend, hc⟩, hback⟩, -, hhead, hlast⟩ := h
  obtain ⟨lead₁, htime, h₁⟩ := Text.exists_frontField hfront hend hc
  rw [htime.getLast?_eq] at hend
  obtain ⟨lead₂, hlevel, h₂⟩ := Text.exists_frontField h₁ hend hc
  rw [hlevel.getLast?_eq] at hend
  obtain ⟨lead₃, hdevice, h₃⟩ := Text.exists_frontField h₂ hend hc
  refine ⟨lead₁ ++ (payload ++ back), lead₂ ++ (payload ++ back), lead₃ ++ (payload ++ back), ?_,
    hlevel.append _, hdevice.append _, ?_⟩
  · rw [List.append_assoc]
    exact htime.append _
  · rw [← List.append_assoc]
    exact stripBoth_append lead₃ back hhead hlast (blank_of_runs_eq_nil h₃) hback

/-- **The reader's parts are the parts of the whole line.** -/
theorem parts?_eq_some_iff {cs : List Char} {p : Parts} :
    parts? cs = some p ↔ ∃ time level device payload,
      Cut cs time level device payload ∧ p.Of time level device payload := by
  constructor
  · intro h
    simp only [parts?, Option.bind_eq_bind, Option.bind_eq_some_iff] at h
    obtain ⟨⟨time, rest₁⟩, htime, ⟨level, rest₂⟩, hlevel, ⟨device, rest₃⟩, hdevice, h⟩ := h
    dsimp only at hlevel hdevice h
    split at h
    · cases h
    · rename_i hne
      rw [List.isEmpty_iff] at hne
      cases h
      rw [nextField_eq_some_iff] at htime hlevel hdevice
      exact ⟨time, level, device, trim rest₃, cut_of_frontField htime hlevel hdevice
        (stripBoth_eq_iff.1 rfl) hne, stripBoth_eq_iff.1 rfl, stripBoth_eq_iff.1 rfl,
        dropTrailing_eq_iff.1 rfl, rfl⟩
  · rintro ⟨time, level, device, payload, hcut, htime, hlevel, hdevice, hpayload⟩
    obtain ⟨rest₁, rest₂, rest₃, h₁, h₂, h₃, htrim⟩ := hcut.exists_frontField
    rw [← nextField_eq_some_iff] at h₁ h₂ h₃
    rw [← stripBoth_eq_iff] at htime hlevel
    rw [← dropTrailing_eq_iff] at hdevice
    simp only [parts?, Option.bind_eq_bind, h₁, h₂, h₃, Option.bind_some, htrim, htime, hlevel,
      hdevice]
    rw [if_neg (by simpa using hcut.ne), ← hpayload]

/-- Nothing else is missing from a line than runs. -/
theorem parts?_eq_none_iff {cs : List Char} : parts? cs = none ↔ (runs cs).length < 4 := by
  -- a field is a run, and where there is no field there is at most one more
  cases htime : nextField cs with
  | none =>
    have hle := length_runs_le_of_nextField_eq_none htime
    simp only [parts?, htime]
    exact ⟨fun _ => by omega, fun _ => rfl⟩
  | some cut₁ =>
    have hruns₁ := (nextField_eq_some_iff.1 htime).runs_eq
    cases hlevel : nextField cut₁.2 with
    | none =>
      have hle := length_runs_le_of_nextField_eq_none hlevel
      simp only [parts?, htime, hlevel, hruns₁, List.length_cons, Option.bind_eq_bind,
        Option.bind_some]
      exact ⟨fun _ => by omega, fun _ => rfl⟩
    | some cut₂ =>
      have hruns₂ := (nextField_eq_some_iff.1 hlevel).runs_eq
      cases hdevice : nextField cut₂.2 with
      | none =>
        have hle := length_runs_le_of_nextField_eq_none hdevice
        simp only [parts?, htime, hlevel, hdevice, hruns₁, hruns₂, List.length_cons,
          Option.bind_eq_bind, Option.bind_some]
        exact ⟨fun _ => by omega, fun _ => rfl⟩
      | some cut₃ =>
        have hruns₃ := (nextField_eq_some_iff.1 hdevice).runs_eq
        simp only [parts?, htime, hlevel, hdevice, hruns₁, hruns₂, hruns₃, List.length_cons,
          Option.bind_eq_bind, Option.bind_some]
        by_cases hnil : trim cut₃.2 = []
        · simp [hnil, trim_eq_nil_iff.1 hnil]
        · have hpos := List.length_pos_iff.2 (mt trim_eq_nil_iff.2 hnil)
          simp [hnil]
          omega

/-! ## What is read from a line -/

/-- The line starts with the mark of a banner and ends with one. -/
def Marked (cs : List Char) : Prop :=
  bannerMark <+: cs ∧ bannerMark <:+ cs

theorem isBanner_iff {cs : List Char} : isBanner cs = true ↔ Marked cs := by
  rw [isBanner, Bool.and_eq_true, List.isPrefixOf_iff_prefix, List.isSuffixOf_iff_suffix, Marked]

theorem isBanner_eq_false_iff {cs : List Char} : isBanner cs = false ↔ ¬ Marked cs := by
  rw [← isBanner_iff, Bool.not_eq_true]

section Readings

variable {line text : String} {e : Event} {reason : NumberError}

theorem parse_eq_banner_iff :
    parse line = .ok (.banner text) ↔ text = line ∧ isBanner line.toList = true := by
  cases hbanner : isBanner line.toList <;> cases hparts : parts? line.toList with
  | none => simp [parse, hbanner, hparts, eq_comm]
  | some p => cases hread : readCount p.time <;> simp [parse, hbanner, hparts, hread, eq_comm]

theorem parse_eq_missingFields_iff :
    parse line = .error (.missingFields text) ↔
      text = line ∧ isBanner line.toList = false ∧ parts? line.toList = none := by
  cases hbanner : isBanner line.toList <;> cases hparts : parts? line.toList with
  | none => simp [parse, hbanner, hparts, eq_comm]
  | some p => cases hread : readCount p.time <;> simp [parse, hbanner, hparts, hread]

theorem parse_eq_invalidTimestamp_iff :
    parse line = .error (.invalidTimestamp text reason) ↔
      text = line ∧ isBanner line.toList = false ∧
        ∃ p, parts? line.toList = some p ∧ readCount p.time = .error reason := by
  cases hbanner : isBanner line.toList <;> cases hparts : parts? line.toList with
  | none => simp [parse, hbanner, hparts]
  | some p => cases hread : readCount p.time <;> simp [parse, hbanner, hparts, hread, eq_comm]

theorem parse_eq_event_iff :
    parse line = .ok (.event e) ↔
      isBanner line.toList = false ∧ ∃ p, parts? line.toList = some p ∧
        readCount p.time = .ok e.timeMs ∧ e.level = Level.ofToken (String.ofList p.level) ∧
        e.device = String.ofList p.device ∧ e.payload = String.ofList p.payload := by
  obtain ⟨time, level, device, payload⟩ := e
  cases hbanner : isBanner line.toList <;> cases hparts : parts? line.toList with
  | none => simp [parse, hbanner, hparts]
  | some p => cases hread : readCount p.time <;> simp [parse, hbanner, hparts, hread, eq_comm]

end Readings

/-- All parts are there, but the first run is no count when the brackets around it are off. -/
theorem exists_bad_time_iff {cs : List Char} :
    (∃ p, parts? cs = some p ∧ ∃ reason, readCount p.time = .error reason) ↔
      4 ≤ (runs cs).length ∧ ∃ time stamp, (runs cs).head? = some time ∧
        StripsTo (fun c => c == '[' || c == ']') time stamp ∧ ∀ n, ¬ IsCount stamp n := by
  constructor
  · intro ⟨p, hparts, hread⟩
    obtain ⟨time, level, device, payload, hcut, hof⟩ := parts?_eq_some_iff.1 hparts
    refine ⟨?_, time, p.time, ?_, hof.time, readCount_eq_error_iff.1 hread⟩
    · rw [← Nat.not_lt, ← parts?_eq_none_iff, hparts]
      simp
    · rw [hcut.runs_eq]
      rfl
  · intro ⟨hruns, time, stamp, htime, hstamp, hcount⟩
    cases hparts : parts? cs with
    | none => exact absurd (parts?_eq_none_iff.1 hparts) (Nat.not_lt.2 hruns)
    | some p =>
      obtain ⟨time', level, device, payload, hcut, hof⟩ := parts?_eq_some_iff.1 hparts
      -- the first run is the one that the reader found
      rw [hcut.runs_eq] at htime
      cases htime
      have hsame : p.time = stamp := by
        rw [← stripBoth_eq_iff.2 hof.time, stripBoth_eq_iff.2 hstamp]
      exact ⟨p, rfl, readCount_eq_error_iff.2 (hsame ▸ hcount)⟩

/-- **Every line is classified, and by the line as a whole.** A banner starts and ends with its
mark. Of the other lines those with fewer than four runs are malformed, and so are those whose first
run is no count when the brackets around it are off. All others are events, and this is their
content. -/
theorem every_line_is_classified (line : String) :
    (∀ text, parse line = .ok (.banner text) ↔ text = line ∧ Marked line.toList) ∧
    (∀ text, parse line = .error (.missingFields text) ↔
      text = line ∧ ¬ Marked line.toList ∧ (runs line.toList).length < 4) ∧
    (∀ text, (∃ reason, parse line = .error (.invalidTimestamp text reason)) ↔
      text = line ∧ ¬ Marked line.toList ∧ 4 ≤ (runs line.toList).length ∧
        ∃ time stamp, (runs line.toList).head? = some time ∧
          StripsTo (fun c => c == '[' || c == ']') time stamp ∧ ∀ n, ¬ IsCount stamp n) ∧
    (∀ e, parse line = .ok (.event e) ↔
      ¬ Marked line.toList ∧ ∃ (time level device payload : List Char) (p : Parts),
        Cut line.toList time level device payload ∧ p.Of time level device payload ∧
        IsCount p.time e.timeMs.toNat ∧ e.level = Level.ofToken (String.ofList p.level) ∧
        e.device = String.ofList p.device ∧ e.payload = String.ofList p.payload) := by
  refine ⟨fun text => ?_, fun text => ?_, fun text => ?_, fun e => ?_⟩
  · rw [parse_eq_banner_iff, isBanner_iff]
  · rw [parse_eq_missingFields_iff, isBanner_eq_false_iff, parts?_eq_none_iff]
  · simp only [parse_eq_invalidTimestamp_iff, isBanner_eq_false_iff]
    rw [← exists_bad_time_iff]
    constructor
    · intro ⟨reason, htext, hbanner, p, hparts, hread⟩
      exact ⟨htext, hbanner, p, hparts, reason, hread⟩
    · intro ⟨htext, hbanner, p, hparts, reason, hread⟩
      exact ⟨reason, htext, hbanner, p, hparts, hread⟩
  · rw [parse_eq_event_iff, isBanner_eq_false_iff]
    simp only [parts?_eq_some_iff, readCount_eq_ok_iff]
    constructor
    · rintro ⟨hbanner, p, ⟨time, level, device, payload, hcut, hof⟩, hrest⟩
      exact ⟨hbanner, time, level, device, payload, p, hcut, hof, hrest⟩
    · rintro ⟨hbanner, time, level, device, payload, p, hcut, hof, hrest⟩
      exact ⟨hbanner, p, ⟨time, level, device, payload, hcut, hof⟩, hrest⟩

/-! ## What is read is legible -/

/-- What comes out of a line has no decoration of its own. -/
theorem legible_of_parse {line : String} {e : Event} (h : parse line = .ok (.event e)) :
    e.Legible := by
  obtain ⟨-, p, hparts, -, hlevel, hdevice, hpayload⟩ := parse_eq_event_iff.1 h
  obtain ⟨time, level, device, payload, hcut, hof⟩ := parts?_eq_some_iff.1 hparts
  have hplain : ∀ run ∈ runs line.toList, ∀ c ∈ run, isBlank c = false :=
    fun run hrun => plain_of_mem_runs hrun
  rw [hcut.runs_eq] at hplain
  have htoken : e.level.token.toList = p.level := by
    rw [hlevel, Level.token_ofToken, String.toList_ofList]
  have hname : e.device.toList = p.device := by rw [hdevice, String.toList_ofList]
  have hrest : e.payload.toList = payload := by rw [hpayload, String.toList_ofList, hof.payload]
  obtain ⟨front, back, hcutLevel, -, -⟩ := hof.level.cut
  obtain ⟨colons, hcutDevice, -⟩ := hof.device.cut
  -- each condition is on one of the parts: the level and the device are runs with their decoration
  -- taken off, and the payload is what is left of the line
  refine ⟨?_, ?_, ?_, ?_, ?_, ?_, ?_, ?_, ?_⟩
  · rw [htoken]
    intro c hc
    exact hplain level (by simp) c (by simp [hcutLevel, hc])
  · rw [htoken]
    intro c hc
    simpa using hof.level.head c hc
  · rw [htoken]
    intro c hc
    simpa using hof.level.last c hc
  · rw [hlevel, Level.token_ofToken]
  · rw [hname]
    intro c hc
    exact hplain device (by simp) c (by simp [hcutDevice, hc])
  · rw [hname]
    intro c hc
    simpa using hof.device.last c hc
  · rw [hrest]
    exact hcut.ne
  · rw [hrest]
    exact hcut.head
  · rw [hrest]
    exact hcut.last

/-- **The wire form and the reading agree.** Exactly the legible events come back from their wire
form, nothing else ever comes out of a line, and so every event that is read from some line could
have been read from its own wire form, and it has a last character. The condition on levels is that
known ones are not spelled out. -/
theorem wire_form_and_reading_agree :
    (∀ e : Event, parse e.wire = .ok (.event e) ↔ e.Legible) ∧
    (∀ (line : String) (e : Event), parse line = .ok (.event e) →
      e.Legible ∧ e.lastChar ≠ none ∧ parse e.wire = .ok (.event e)) ∧
    ∀ l : Level, Level.ofToken l.token = l ↔
      ∀ token, l = .other token → token ∉ ["err", "wrn", "inf", "dbg"] := by
  refine ⟨fun e => ⟨legible_of_parse, parse_wire⟩, ?_, fun l => Level.ofToken_token_iff⟩
  intro line e h
  have hlegible := legible_of_parse h
  exact ⟨hlegible, hlegible.lastChar_ne_none, parse_wire hlegible⟩

/-- A line with more decoration than it needs. -/
theorem overdecorated_line_is_legible :
    parse "\t[[+007] <<inf>  sut::\tup and  running " =
        .ok (.event ⟨7, .inf, "sut", "up and  running"⟩) ∧
      (⟨7, .inf, "sut", "up and  running"⟩ : Event).Legible :=
  ⟨by decide, (wire_form_and_reading_agree.2.1
    "\t[[+007] <<inf>  sut::\tup and  running " _ (by decide)).1⟩

end Line

end BoardBench
