/-!
# Decimal numbers

Numbers are written with the fewest decimal digits and a minus sign in front of negative ones. A
64-bit count is read back from left to right, and the first character that cannot stand where it
does decides the error.

The two kinds of digits are defined here, for ids, pin numbers and names of reports alike. The
reader of counts answers with the reason and not with the place, since this is what a rejected line
is reported with.
-/

set_option autoImplicit false

namespace BoardBench.Text

/-! ## Digits -/

def isDecimalDigit (c : Char) : Bool :=
  '0' ≤ c ∧ c ≤ '9'

/-- A digit of a hexadecimal number, with small or capital letters. -/
def isHexDigit (c : Char) : Bool :=
  isDecimalDigit c || ('a' ≤ c && c ≤ 'f') || ('A' ≤ c && c ≤ 'F')

theorem isHexDigit_of_isDecimalDigit {c : Char} (h : isDecimalDigit c = true) :
    isHexDigit c = true := by
  simp [isHexDigit, h]

/-! ## Writing -/

def digitChar (d : Nat) : Char :=
  Char.ofNat (48 + d)

/-- The decimal digits of `n`, without leading zeros. -/
def digits (n : Nat) : List Char :=
  if n < 10 then [digitChar n] else digits (n / 10) ++ [digitChar (n % 10)]
termination_by n

def decimal (n : Nat) : String :=
  String.ofList (digits n)

def signedDecimal : Int → String
  | .ofNat n => decimal n
  | .negSucc n => "-" ++ decimal (n + 1)

/-- The decimal text of `n`, filled up with zeros to `width` digits. -/
def paddedDecimal (width n : Nat) : String :=
  let ds := digits n
  String.ofList (List.replicate (width - ds.length) '0' ++ ds)

/-! ## Reading -/

/-- Why a text is not a 64-bit count. -/
inductive NumberError where
  | empty
  | invalidDigit
  | tooLarge
deriving Repr, DecidableEq

def NumberError.message : NumberError → String
  | .empty => "cannot parse integer from empty string"
  | .invalidDigit => "invalid digit found in string"
  | .tooLarge => "number too large to fit in target type"

def digitValue? (c : Char) : Option Nat :=
  if isDecimalDigit c then some (c.toNat - 48) else none

/-- Continues a number of value `v` with more digits; all values stay within 64 bits. -/
def scanDigits (v : Nat) : List Char → Except NumberError Nat
  | [] => .ok v
  | c :: cs =>
    match digitValue? c with
    | none => .error .invalidDigit
    | some d => if 10 * v + d < UInt64.size then scanDigits (10 * v + d) cs else .error .tooLarge

/-- Reads a 64-bit count: decimal digits, after at most one plus sign. A plus sign alone counts as
an invalid digit. -/
def readCount : List Char → Except NumberError UInt64
  | [] => .error .empty
  | '+' :: c :: cs => UInt64.ofNat <$> scanDigits 0 (c :: cs)
  | cs => UInt64.ofNat <$> scanDigits 0 cs

end BoardBench.Text
