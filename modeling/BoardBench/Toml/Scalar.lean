import BoardBench.Text.Decimal
import BoardBench.Toml.Value

/-!
# The scalars of TOML

Strings in their four spellings, integers, floats, booleans and dates. A reader takes characters
off the front and answers with what they mean and with the rest; `none` means that the document is
not TOML, whatever follows.

There is no error that tells where a document goes wrong, as nobody asks for it: a document that is
not TOML is refused as a whole. This keeps a reader to one question, and what can be read to a
function.
-/

set_option autoImplicit false

namespace BoardBench.Toml

/-- Reads something off the front of a text. -/
abbrev Reader (α : Type) := List Char → Option (α × List Char)

/-! ## Characters -/

/-- Space and tab, the only blanks inside a line. -/
def isSpace (c : Char) : Bool :=
  c == ' ' || c == '\t'

/-- What may stand in a comment: everything but control characters; tabs may. -/
def isPrintable (c : Char) : Bool :=
  c == '\t' || (0x20 ≤ c.toNat && c.toNat != 0x7F)

def skipSpaces (cs : List Char) : List Char :=
  cs.dropWhile isSpace

/-- Takes a line end off the front: a line feed, with or without a carriage return before it. -/
def newline? : List Char → Option (List Char)
  | '\n' :: cs => some cs
  | '\r' :: '\n' :: cs => some cs
  | _ => none

/-- Drops spaces, tabs and line ends. -/
def skipLines : List Char → List Char
  | ' ' :: cs => skipLines cs
  | '\t' :: cs => skipLines cs
  | '\n' :: cs => skipLines cs
  | '\r' :: '\n' :: cs => skipLines cs
  | cs => cs

/-- The value of a digit in a base up to sixteen. -/
def digitIn? (base : Nat) (c : Char) : Option Nat :=
  let n := c.toNat
  let v :=
    if '0' ≤ c ∧ c ≤ '9' then n - 48
    else if 'a' ≤ c ∧ c ≤ 'f' then n - 87
    else if 'A' ≤ c ∧ c ≤ 'F' then n - 55
    else base
  if v < base then some v else none

def numberIn? (base : Nat) (ds : List Char) : Option Nat :=
  ds.foldlM (fun v d => (base * v + ·) <$> digitIn? base d) 0

/-! ## Strings -/

/-- The two kinds of quotation: with escapes, and without. -/
inductive Quote where
  | basic
  | literal
deriving Repr, DecidableEq

def Quote.mark : Quote → Char
  | .basic => '"'
  | .literal => '\''

/-- The character stands for itself inside a quotation on one line. -/
def Quote.isPlain (q : Quote) (c : Char) : Bool :=
  isPrintable c && c != q.mark && !(q == .basic && c == '\\')

/-- The character with a hexadecimal code point of exactly `width` digits. -/
def codePoint? (width : Nat) : Reader Char := fun cs => do
  let ds := cs.take width
  if ds.length ≠ width then none
  let n ← numberIn? 16 ds
  if n.isValidChar then some (Char.ofNat n, cs.drop width) else none

/-- What follows the backslash of an escape. -/
def escape? : Reader Char
  | 'b' :: cs => some ('\x08', cs)
  | 't' :: cs => some ('\t', cs)
  | 'n' :: cs => some ('\n', cs)
  | 'f' :: cs => some ('\x0C', cs)
  | 'r' :: cs => some ('\r', cs)
  | '"' :: cs => some ('"', cs)
  | '\\' :: cs => some ('\\', cs)
  | 'u' :: cs => codePoint? 4 cs
  | 'U' :: cs => codePoint? 8 cs
  | _ => none

/-- The rest of a quotation on one line, behind its opening mark. -/
def lineQuotation (q : Quote) : List Char → Option (List Char × List Char)
  | [] => none
  | c :: cs =>
    if c = q.mark then some ([], cs)
    else if q = .basic ∧ c = '\\' then do
      let (e, rest) ← escape? cs
      if _h : rest.length < cs.length then
        let (body, out) ← lineQuotation q rest
        some (e :: body, out)
      else none
    else if q.isPlain c then do
      let (body, out) ← lineQuotation q cs
      some (c :: body, out)
    else none
termination_by cs => cs.length
decreasing_by
  · simp only [List.length_cons]
    omega
  · simp

/-- The rest of a quotation over several lines, behind its three opening marks. One or two marks
inside stand for themselves; a run of three closes the quotation, and up to two more marks in front
of these three belong to it. A backslash at the end of a line joins it to the next visible
character. Line ends count as a line feed. -/
def blockQuotation (q : Quote) : List Char → Option (List Char × List Char)
  | [] => none
  | c :: cs =>
    if c = q.mark then
      let more := (cs.takeWhile (· == q.mark)).length
      if more < 2 then do
        let (body, out) ← blockQuotation q (cs.drop more)
        some (List.replicate (more + 1) c ++ body, out)
      else
        let used := min more 4
        some (List.replicate (used - 2) c, cs.drop used)
    else if q = .basic ∧ c = '\\' then
      match newline? (skipSpaces cs) with
      | some below =>
        if _h : (skipLines below).length < cs.length then blockQuotation q (skipLines below)
        else none
      | none => do
        let (e, rest) ← escape? cs
        if _h : rest.length < cs.length then
          let (body, out) ← blockQuotation q rest
          some (e :: body, out)
        else none
    else
      match newline? (c :: cs) with
      | some below =>
        if _h : below.length ≤ cs.length then do
          let (body, out) ← blockQuotation q below
          some ('\n' :: body, out)
        else none
      | none =>
        if q.isPlain c then do
          let (body, out) ← blockQuotation q cs
          some (c :: body, out)
        else none
termination_by cs => cs.length
decreasing_by all_goals (simp only [List.length_cons, List.length_drop]; omega)

/-- A quotation of one kind on one line, with its opening mark. -/
def quotation (q : Quote) : Reader String
  | c :: cs =>
    if c = q.mark then do
      let (body, out) ← lineQuotation q cs
      some (String.ofList body, out)
    else none
  | [] => none

/-- A string value: three marks open a quotation over several lines, of which a line end right
behind the marks is no part. -/
def string (q : Quote) (cs : List Char) : Option (String × List Char) :=
  if List.replicate 3 q.mark |>.isPrefixOf cs then do
    let start := cs.drop 3
    let (body, out) ← blockQuotation q ((newline? start).getD start)
    some (String.ofList body, out)
  else quotation q cs

/-! ## Numbers -/

/-- Digits with single underscores between them. -/
def digitRun (base : Nat) : List Char → Option (List Char × List Char)
  | [] => none
  | [c] => if (digitIn? base c).isSome then some ([c], []) else none
  | c :: d :: cs =>
    if (digitIn? base c).isNone then none
    else if d = '_' then (digitRun base cs).map fun (ds, out) => (c :: ds, out)
    else if (digitIn? base d).isNone then some ([c], d :: cs)
    else (digitRun base (d :: cs)).map fun (ds, out) => (c :: ds, out)

/-- A sign, if there is one: whether it is a minus. -/
def sign : List Char → Bool × List Char
  | '-' :: cs => (true, cs)
  | '+' :: cs => (false, cs)
  | cs => (false, cs)

/-- The digits of a decimal integer: a zero alone, or a run that does not start with one. -/
def wholeDigits : Reader (List Char)
  | '0' :: cs => some (['0'], cs)
  | cs => digitRun 10 cs

/-- Integers are 64-bit words with a sign. -/
def inRange (n : Int) : Bool :=
  Int64.minValue.toInt ≤ n && n ≤ Int64.maxValue.toInt

/-- An integer, decimal with a sign or hexadecimal, octal or binary without one. -/
def integer (cs : List Char) : Option (Int × List Char) := do
  let based (base : Nat) (rest : List Char) : Option (Int × List Char) := do
    let (ds, out) ← digitRun base rest
    let n ← numberIn? base ds
    some (n, out)
  let (n, out) ← match cs with
    | '0' :: 'x' :: rest => based 16 rest
    | '0' :: 'o' :: rest => based 8 rest
    | '0' :: 'b' :: rest => based 2 rest
    | _ => do
      let (negative, rest) := sign cs
      let (ds, out) ← wholeDigits rest
      let n ← numberIn? 10 ds
      some (if negative then -(n : Int) else n, out)
  if inRange n then some (n, out) else none

/-- The fraction of a float, behind its point, and an exponent, behind its mark. -/
structure FloatParts where
  negative : Bool
  whole : List Char
  fraction : List Char
  exponent : Int
deriving Repr

/-- The exponent of a float, with its mark. -/
def exponent : Reader Int
  | c :: cs =>
    if c = 'e' ∨ c = 'E' then do
      let (negative, rest) := sign cs
      let (ds, out) ← digitRun 10 rest
      let n ← numberIn? 10 ds
      some (if negative then -(n : Int) else n, out)
    else none
  | [] => none

/-- A float in digits: a whole part with a fraction, an exponent, or both. -/
def floatParts (cs : List Char) : Option (FloatParts × List Char) := do
  let (negative, rest) := sign cs
  let (whole, rest) ← wholeDigits rest
  match rest with
  | '.' :: tail =>
    let (fraction, rest) ← digitRun 10 tail
    match rest with
    | 'e' :: _ | 'E' :: _ =>
      let (e, out) ← exponent rest
      some (⟨negative, whole, fraction, e⟩, out)
    | _ => some (⟨negative, whole, fraction, 0⟩, rest)
  | _ =>
    let (e, out) ← exponent rest
    some (⟨negative, whole, [], e⟩, out)

/-- A positive float is refused if the nearest double would be infinite, which begins half a unit
above the greatest double, at `2 ^ 970 * (2 ^ 54 - 1)`. Only magnitudes near the limit are
multiplied out. -/
def FloatParts.overflows (p : FloatParts) : Bool :=
  let ds := (p.whole ++ p.fraction).dropWhile (· == '0')
  let scale := p.exponent - p.fraction.length
  let limit : Nat := ((1 <<< 54) - 1) <<< 970
  if p.negative || ds.isEmpty then false
  else if 310 < ds.length + scale then true
  else if ds.length + scale < 308 then false
  else
    let m := (numberIn? 10 ds).getD 0
    if 0 ≤ scale then decide (limit ≤ m * Nat.pow 10 scale.toNat)
    else decide (limit * Nat.pow 10 (-scale).toNat ≤ m)

/-- A float: digits, or one of the names of the values that are no numbers. -/
def float (cs : List Char) : Option (String × List Char) :=
  let unsigned := (sign cs).2
  let written (out : List Char) : String × List Char :=
    (String.ofList (cs.take (cs.length - out.length)), out)
  if ['i', 'n', 'f'].isPrefixOf unsigned || ['n', 'a', 'n'].isPrefixOf unsigned then
    some (written (unsigned.drop 3))
  else do
    let (p, out) ← floatParts cs
    if p.overflows then none else some (written out)

/-! ## Dates and times -/

/-- Exactly `width` decimal digits, with a value in a closed range. -/
def field (width low high : Nat) : Reader Nat := fun cs => do
  let ds := cs.take width
  if ds.length ≠ width then none
  let n ← numberIn? 10 ds
  if low ≤ n ∧ n ≤ high then some (n, cs.drop width) else none

def expect (c : Char) : List Char → Option (List Char)
  | d :: cs => if d = c then some cs else none
  | [] => none

def daysIn (year month : Nat) : Nat :=
  if month = 2 then
    if year % 4 = 0 ∧ (year % 100 ≠ 0 ∨ year % 400 = 0) then 29 else 28
  else if month = 4 ∨ month = 6 ∨ month = 9 ∨ month = 11 then 30
  else 31

def calendarDate (cs : List Char) : Option (List Char) := do
  let (year, cs) ← field 4 0 9999 cs
  let cs ← expect '-' cs
  let (month, cs) ← field 2 1 12 cs
  let cs ← expect '-' cs
  let (_, cs) ← field 2 1 (daysIn year month) cs
  some cs

/-- A time of day, with leap seconds, and with a fraction if a point follows. -/
def clockTime (cs : List Char) : Option (List Char) := do
  let (_, cs) ← field 2 0 23 cs
  let cs ← expect ':' cs
  let (_, cs) ← field 2 0 59 cs
  let cs ← expect ':' cs
  let (_, cs) ← field 2 0 60 cs
  match cs with
  | '.' :: fraction =>
    let out := fraction.dropWhile Text.isDecimalDigit
    if out.length < fraction.length then some out else none
  | _ => some cs

/-- The offset from universal time that may follow a date and time. -/
def utcOffset (cs : List Char) : Option (List Char) :=
  match cs with
  | 'Z' :: out => some out
  | 'z' :: out => some out
  | c :: rest =>
    if c = '+' ∨ c = '-' then do
      let (_, rest) ← field 2 0 23 rest
      let rest ← expect ':' rest
      let (_, out) ← field 2 0 59 rest
      some out
    else some cs
  | [] => some []

/-- What follows the date of a date value: a time behind a `T` or a space, and its offset. -/
def timeOfDate (cs : List Char) : Option (List Char) :=
  match cs with
  | c :: rest =>
    if c = 'T' ∨ c = 't' ∨ c = ' ' then
      match clockTime rest with
      | some out => utcOffset out
      | none => some cs
    else some cs
  | [] => some []

/-- A date, a time, or a date with a time. -/
def date (cs : List Char) : Option (String × List Char) := do
  let out ← match calendarDate cs with
    | some out => timeOfDate out
    | none => clockTime cs
  some (String.ofList (cs.take (cs.length - out.length)), out)

/-! ## Any scalar -/

/-- A scalar value. Dates are tried before floats, and floats before integers, since each of them
may begin like the next. -/
def scalar (cs : List Char) : Option (Value × List Char) :=
  match cs with
  | '"' :: _ => (string .basic cs).map fun (s, out) => (.text s, out)
  | '\'' :: _ => (string .literal cs).map fun (s, out) => (.text s, out)
  | 't' :: 'r' :: 'u' :: 'e' :: out => some (.boolean true, out)
  | 'f' :: 'a' :: 'l' :: 's' :: 'e' :: out => some (.boolean false, out)
  | _ =>
    match date cs with
    | some (s, out) => some (.date s, out)
    | none =>
      match float cs with
      | some (s, out) => some (.float s, out)
      | none => (integer cs).map fun (n, out) => (.integer n, out)

end BoardBench.Toml
