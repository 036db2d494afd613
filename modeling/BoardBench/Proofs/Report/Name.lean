import BoardBench.Proofs.Event.Grammar
import BoardBench.Report

/-!
# The names of reports

A report is named after the time of its creation and the board under test, whose id may be any text.
The parts of the time are numbers of a fixed width, except for the year, which has as many digits as
it needs and perhaps a sign. Still, **the time stamp says where it ends**: each of its parts can be
taken off the front of a text together with its value (`Stamp.render_append_iff`). So whatever the
ids look like, two names are the same only if the ids are and the times show the same microsecond
(`reports_never_collide`).

All lemmas are about a text that goes on behind the number or the stamp. Two names are equal as
texts, and nothing tells at first where in either the stamp ends; it can only be found by taking the
same kind of thing off both, from the front. An equivalence with the rest on both sides is what
makes these steps compose (`…_append_iff`), and the id is what is left in the end.

The year is the one part without a width, and it is in front. That it ends at all is due to the
hyphen behind it, which is no digit.
-/

set_option autoImplicit false

namespace BoardBench

/-! ## Numbers of a fixed width -/

namespace Text

variable {w m n : Nat} {xs ys : List Char}

theorem isDecimalDigit_digitChar {d : Nat} (h : d < 10) : isDecimalDigit (digitChar d) = true := by
  have hall : ∀ d : Fin 10, isDecimalDigit (digitChar d) = true := by decide
  exact hall ⟨d, h⟩

theorem toNat_digitChar {d : Nat} (h : d < 10) : (digitChar d).toNat - '0'.toNat = d := by
  have hall : ∀ d : Fin 10, (digitChar d).toNat - '0'.toNat = d := by decide
  exact hall ⟨d, h⟩

theorem decimalValue_concat (cs : List Char) (c : Char) :
    decimalValue (cs ++ [c]) = 10 * decimalValue cs + (c.toNat - '0'.toNat) := by
  simp [decimalValue, Nat.ofDigits_cons, Nat.add_comm]

theorem decimalValue_digits (n : Nat) : decimalValue (digits n) = n := by
  fun_induction digits n with
  | case1 n hn =>
    have hvalue := decimalValue_concat [] (digitChar n)
    rw [toNat_digitChar hn] at hvalue
    simpa [decimalValue] using hvalue
  | case2 n hn ih =>
    rw [decimalValue_concat, ih, toNat_digitChar (Nat.mod_lt n (by decide)), Nat.div_add_mod]

theorem decimalValue_zeros_append (k : Nat) (cs : List Char) :
    decimalValue (List.replicate k '0' ++ cs) = decimalValue cs := by
  induction k with
  | zero => rfl
  | succ k ih =>
    rw [List.replicate_succ, List.cons_append, decimalValue_cons, ih]
    simp

/-- A padded number is read back. -/
theorem decimalValue_paddedDecimal (w n : Nat) : decimalValue (paddedDecimal w n).toList = n := by
  rw [paddedDecimal, String.toList_ofList, decimalValue_zeros_append, decimalValue_digits]

theorem length_digits_le (h : n < 10 ^ (w + 1)) : (digits n).length ≤ w + 1 := by
  fun_induction digits n generalizing w with
  | case1 n hn => simp
  | case2 n hn ih =>
    cases w with
    | zero => exact absurd h hn
    | succ w =>
      have hquot : n / 10 < 10 ^ (w + 1) := by
        rw [Nat.div_lt_iff_lt_mul (by decide)]
        exact h
      rw [List.length_append, List.length_singleton]
      exact Nat.succ_le_succ (ih hquot)

/-- A number that fits has the width asked for. -/
theorem length_paddedDecimal (h : n < 10 ^ (w + 1)) :
    (paddedDecimal (w + 1) n).toList.length = w + 1 := by
  have hle := length_digits_le h
  rw [paddedDecimal, String.toList_ofList, List.length_append, List.length_replicate]
  omega

theorem isDecimalDigit_of_mem_padded {c : Char} (h : c ∈ (paddedDecimal w n).toList) :
    isDecimalDigit c = true := by
  rw [paddedDecimal, String.toList_ofList] at h
  rcases List.mem_append.1 h with h | h
  · rw [List.eq_of_mem_replicate h]
    rfl
  · obtain ⟨d, hd, rfl⟩ := mem_digits h
    exact isDecimalDigit_digitChar hd

/-- A number starts with a digit. -/
theorem takeWhile_paddedDecimal_append (w n : Nat) (xs : List Char) :
    ((paddedDecimal w n).toList ++ xs).takeWhile (!isDecimalDigit ·) = [] := by
  have hne : (paddedDecimal w n).toList ≠ [] := by
    rw [paddedDecimal, String.toList_ofList]
    exact List.append_ne_nil_of_right_ne_nil _ (digits_ne_nil n)
  obtain ⟨c, cs, hcons⟩ := List.exists_cons_of_ne_nil hne
  have hc : isDecimalDigit c = true :=
    isDecimalDigit_of_mem_padded (hcons ▸ List.mem_cons_self)
  rw [hcons, List.cons_append, List.takeWhile_cons_of_neg (by simp [hc])]

/-- **A number of a known width shows its value and where it ends.** -/
theorem paddedDecimal_append_iff (hm : m < 10 ^ (w + 1)) (hn : n < 10 ^ (w + 1)) :
    (paddedDecimal (w + 1) m).toList ++ xs = (paddedDecimal (w + 1) n).toList ++ ys ↔
      m = n ∧ xs = ys := by
  constructor
  · intro h
    have hlength := (length_paddedDecimal hm).trans (length_paddedDecimal hn).symm
    obtain ⟨hnumber, hrest⟩ := List.append_inj h hlength
    have hvalue := congrArg decimalValue hnumber
    rw [decimalValue_paddedDecimal, decimalValue_paddedDecimal] at hvalue
    exact ⟨hvalue, hrest⟩
  · intro h
    rw [h.1, h.2]

/-- **A number of any width shows its value, and what is no digit shows where it ends.** -/
theorem paddedDecimal_append_cons_iff {c : Char} (hc : isDecimalDigit c = false) :
    (paddedDecimal w m).toList ++ c :: xs = (paddedDecimal w n).toList ++ c :: ys ↔
      m = n ∧ xs = ys := by
  have hcut : ∀ (n : Nat) (xs : List Char),
      ((paddedDecimal w n).toList ++ c :: xs).takeWhile isDecimalDigit =
        (paddedDecimal w n).toList := by
    intro n xs
    rw [List.takeWhile_append_of_pos (fun _ => isDecimalDigit_of_mem_padded),
      List.takeWhile_cons_of_neg (by simp [hc]), List.append_nil]
  constructor
  · intro h
    have hnumber : (paddedDecimal w m).toList = (paddedDecimal w n).toList := by
      rw [← hcut m xs, h, hcut]
    have hvalue := congrArg decimalValue hnumber
    rw [decimalValue_paddedDecimal, decimalValue_paddedDecimal] at hvalue
    rw [hnumber, List.append_cancel_left_eq, List.cons_inj_right] at h
    exact ⟨hvalue, h⟩
  · intro h
    rw [h.1, h.2]

end Text

/-! ## Time stamps -/

namespace Stamp

variable {a b : Stamp} {xs ys : List Char}

/-- The sign of a year in a time stamp. -/
def yearSign (year : Int) : List Char :=
  if year < 0 then ['-'] else if 9999 < year then ['+'] else []

theorem toList_yearText (year : Int) :
    (yearText year).toList = yearSign year ++ (Text.paddedDecimal 4 year.natAbs).toList := by
  unfold yearText yearSign
  split
  · exact String.toList_append
  · split
    · exact String.toList_append
    · rfl

/-- The sign is what stands in front of the digits. -/
theorem takeWhile_yearText_append (year : Int) (xs : List Char) :
    ((yearText year).toList ++ xs).takeWhile (!Text.isDecimalDigit ·) = yearSign year := by
  have hsign : ∀ c ∈ yearSign year, (!Text.isDecimalDigit c) = true := by
    unfold yearSign
    split
    · exact List.forall_mem_singleton.2 rfl
    · split
      · exact List.forall_mem_singleton.2 rfl
      · exact List.forall_mem_nil _
  rw [toList_yearText, List.append_assoc, List.takeWhile_append_of_pos hsign,
    Text.takeWhile_paddedDecimal_append, List.append_nil]

/-- The minus sign tells the years before the year 0 from the others. -/
theorem yearSign_eq_minus_iff {year : Int} : yearSign year = ['-'] ↔ year < 0 := by
  unfold yearSign
  split
  · simp_all
  · split <;> simp_all

/-- **A year shows its value, and the hyphen behind it where it ends**, however many digits it
has. -/
theorem yearText_append_iff {m n : Int} :
    (yearText m).toList ++ '-' :: xs = (yearText n).toList ++ '-' :: ys ↔ m = n ∧ xs = ys := by
  constructor
  · intro h
    have hsign : yearSign m = yearSign n := by
      rw [← takeWhile_yearText_append m ('-' :: xs), h, takeWhile_yearText_append]
    rw [toList_yearText, toList_yearText, hsign, List.append_assoc, List.append_assoc,
      List.append_cancel_left_eq, Text.paddedDecimal_append_cons_iff rfl] at h
    obtain ⟨habs, hrest⟩ := h
    have hnegative : m < 0 ↔ n < 0 := by
      rw [← yearSign_eq_minus_iff, hsign, yearSign_eq_minus_iff]
    refine ⟨?_, hrest⟩
    omega
  · intro h
    rw [h.1, h.2]

/-- What a calendar and a clock show. A leap second is a count of a second or more of nanoseconds,
and follows second 59 only. -/
structure Valid (s : Stamp) : Prop where
  month : 1 ≤ s.month ∧ s.month ≤ 12
  day : 1 ≤ s.day ∧ s.day ≤ 31
  hour : s.hour < 24
  minute : s.minute < 60
  second : s.second < 60
  nanosecond : s.nanosecond < 1000000000 ∨ s.second = 59 ∧ s.nanosecond < 2000000000

/-- The second on display: 60 in a leap second. -/
def displayedSecond (s : Stamp) : Nat :=
  if s.nanosecond < 1000000000 then s.second else 60

theorem Valid.shownSecond (h : a.Valid) : a.shownSecond = a.displayedSecond := by
  obtain hplain | ⟨hsecond, hleap⟩ := h.nanosecond
  · rw [displayedSecond, if_pos hplain, Stamp.shownSecond, nanosPerSecond,
      Nat.div_eq_of_lt hplain, Nat.add_zero]
  · unfold displayedSecond Stamp.shownSecond nanosPerSecond
    split <;> omega

/-- Two digits are enough for all parts but the year and the fraction. -/
theorem Valid.two_digits (h : a.Valid) :
    a.month < 10 ^ 2 ∧ a.day < 10 ^ 2 ∧ a.hour < 10 ^ 2 ∧ a.minute < 10 ^ 2 ∧
      a.shownSecond < 10 ^ 2 := by
  have hmonth := h.month
  have hday := h.day
  have hhour := h.hour
  have hminute := h.minute
  have hsecond : a.shownSecond < 10 ^ 2 := by
    have hbound := h.second
    rw [h.shownSecond, displayedSecond]
    split <;> omega
  omega

theorem microsecond_lt (s : Stamp) : s.microsecond < 10 ^ 6 := by
  unfold microsecond nanosPerSecond
  omega

/-- Two time stamps show the same. -/
structure ShowLike (a b : Stamp) : Prop where
  year : a.year = b.year
  month : a.month = b.month
  day : a.day = b.day
  hour : a.hour = b.hour
  minute : a.minute = b.minute
  second : a.displayedSecond = b.displayedSecond
  microsecond : a.microsecond = b.microsecond

/-- **A time stamp in front of any text shows its parts and where it ends.** -/
theorem render_append_iff (ha : a.Valid) (hb : b.Valid) :
    a.render.toList ++ xs = b.render.toList ++ ys ↔ a.ShowLike b ∧ xs = ys := by
  have htwo : ∀ {m n : Nat} {xs ys : List Char}, m < 10 ^ 2 → n < 10 ^ 2 →
      ((Text.paddedDecimal 2 m).toList ++ xs = (Text.paddedDecimal 2 n).toList ++ ys ↔
        m = n ∧ xs = ys) :=
    Text.paddedDecimal_append_iff
  obtain ⟨hmonth, hday, hhour, hminute, hsecond⟩ := ha.two_digits
  obtain ⟨hmonth', hday', hhour', hminute', hsecond'⟩ := hb.two_digits
  simp only [render, String.toList_append, List.append_assoc, show "-".toList = ['-'] from rfl,
    show "T".toList = ['T'] from rfl, show ":".toList = [':'] from rfl,
    show ".".toList = ['.'] from rfl, List.cons_append, List.nil_append]
  rw [yearText_append_iff, htwo hmonth hmonth', List.cons_inj_right, htwo hday hday',
    List.cons_inj_right, htwo hhour hhour', List.cons_inj_right, htwo hminute hminute',
    List.cons_inj_right, htwo hsecond hsecond', List.cons_inj_right,
    Text.paddedDecimal_append_iff a.microsecond_lt b.microsecond_lt, ha.shownSecond,
    hb.shownSecond]
  constructor
  · intro ⟨hyear, hmonth, hday, hhour, hminute, hsecond, hmicrosecond, hrest⟩
    exact ⟨⟨hyear, hmonth, hday, hhour, hminute, hsecond, hmicrosecond⟩, hrest⟩
  · intro ⟨h, hrest⟩
    exact ⟨h.year, h.month, h.day, h.hour, h.minute, h.second, h.microsecond, hrest⟩

end Stamp

/-! ## Names -/

/-- **Reports of different boards never collide.** Two reports have the same name exactly if they
are about boards with the same id and their times agree up to the microsecond, where a leap second
is shown as second 60. The ids may be any texts, such as ones that look like a part of a name. -/
theorem reports_never_collide (a b : Report) (ha : a.created.Valid) (hb : b.created.Valid) :
    a.fileName = b.fileName ↔
      a.sutId = b.sutId ∧ a.created.year = b.created.year ∧ a.created.month = b.created.month ∧
        a.created.day = b.created.day ∧ a.created.hour = b.created.hour ∧
        a.created.minute = b.created.minute ∧
        a.created.displayedSecond = b.created.displayedSecond ∧
        a.created.nanosecond % 1000000000 / 1000 = b.created.nanosecond % 1000000000 / 1000 := by
  have hnames : a.fileName = b.fileName ↔ a.created.ShowLike b.created ∧ a.sutId = b.sutId := by
    rw [← String.toList_inj]
    simp only [Report.fileName, String.toList_append, List.append_assoc]
    rw [Stamp.render_append_iff ha hb, List.append_cancel_left_eq, List.append_cancel_right_eq,
      String.toList_inj]
  rw [hnames]
  constructor
  · intro ⟨h, hid⟩
    exact ⟨hid, h.year, h.month, h.day, h.hour, h.minute, h.second, h.microsecond⟩
  · intro ⟨hid, hyear, hmonth, hday, hhour, hminute, hsecond, hmicrosecond⟩
    exact ⟨⟨hyear, hmonth, hday, hhour, hminute, hsecond, hmicrosecond⟩, hid⟩

/-- A report from the leap second at the end of the year 10000. -/
def leapReport (nanosecond : Nat) (sutId : String) : Report :=
  { created := ⟨10000, 12, 31, 23, 59, 59, 1000000000 + nanosecond⟩
    sutId, summaries := [], transcripts := [] }

theorem valid_leapReport {nanosecond : Nat} (h : nanosecond < 1000000000) (sutId : String) :
    (leapReport nanosecond sutId).created.Valid where
  month := by simp [leapReport]
  day := by simp [leapReport]
  hour := by simp [leapReport]
  minute := by simp [leapReport]
  second := by simp [leapReport]
  nanosecond := by
    right
    simp only [leapReport, true_and]
    omega

/-- Nanoseconds are cut off; an id that goes on like the rest of a name makes another name. -/
theorem leapReports_share_their_name :
    (leapReport 1001 "7").created.Valid ∧ (leapReport 1999 "7").created.Valid ∧
      (leapReport 1001 "7_hw_test_results.txt").created.Valid ∧
      (leapReport 1001 "7").fileName = (leapReport 1999 "7").fileName ∧
      (leapReport 1001 "7").fileName ≠ (leapReport 1001 "7_hw_test_results.txt").fileName := by
  have early : (leapReport 1001 "7").created.Valid := valid_leapReport (by decide) _
  have late : (leapReport 1999 "7").created.Valid := valid_leapReport (by decide) _
  have long : (leapReport 1001 "7_hw_test_results.txt").created.Valid :=
    valid_leapReport (by decide) _
  refine ⟨early, late, long, ?_, ?_⟩
  · exact (reports_never_collide _ _ early late).2 (by decide)
  · intro h
    have hid := ((reports_never_collide _ _ early long).1 h).1
    exact absurd hid (by decide)

end BoardBench
