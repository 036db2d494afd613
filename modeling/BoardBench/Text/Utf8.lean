/-!
# The bytes of a text

Texts are measured, cut and sent in UTF-8 bytes. Bytes that arrive from outside may not be UTF-8 at
all; `decodeLossy` reads them in any case and puts U+FFFD for every *maximal subpart*: the longest
run of bytes that begins a character but does not finish it, or a single byte that begins none.
-/

set_option autoImplicit false

namespace BoardBench.Text

def encode (text : String) : List UInt8 :=
  text.toList.flatMap String.utf8EncodeChar

/-- The characters that fill exactly the first `width` bytes; `none` if there are fewer bytes, or if
the cut would fall inside a character. -/
def firstBytes : Nat → List Char → Option (List Char)
  | 0, _ => some []
  | _ + 1, [] => none
  | n + 1, c :: cs =>
    if c.utf8Size ≤ n + 1 then (c :: ·) <$> firstBytes (n + 1 - c.utf8Size) cs else none
termination_by _ cs => cs.length

/-! ## Lossy decoding -/

/-- The character that stands for bytes that are no character. -/
def replacement : Char := '\uFFFD'

/-- A character whose last bytes are still missing: the value of the bits read so far, and the
range that the next byte must lie in, followed by those of the bytes after it. -/
structure Unfinished where
  value : Nat
  next : Nat × Nat
  later : List (Nat × Nat)
deriving Repr, DecidableEq

def continuation : Nat × Nat := (0x80, 0xBF)

/-- What a byte begins. The ranges of the second byte shut out overlong forms, surrogates and
values above U+10FFFF. -/
def beginChar (b : UInt8) : List Char × Option Unfinished :=
  let n := b.toNat
  if n < 0x80 then ([Char.ofNat n], none)
  else if n < 0xC2 then ([replacement], none)
  else if n < 0xE0 then ([], some ⟨n - 0xC0, continuation, []⟩)
  else if n = 0xE0 then ([], some ⟨0, (0xA0, 0xBF), [continuation]⟩)
  else if n = 0xED then ([], some ⟨0xD, (0x80, 0x9F), [continuation]⟩)
  else if n < 0xF0 then ([], some ⟨n - 0xE0, continuation, [continuation]⟩)
  else if n = 0xF0 then ([], some ⟨0, (0x90, 0xBF), [continuation, continuation]⟩)
  else if n < 0xF4 then ([], some ⟨n - 0xF0, continuation, [continuation, continuation]⟩)
  else if n = 0xF4 then ([], some ⟨4, (0x80, 0x8F), [continuation, continuation]⟩)
  else ([replacement], none)

/-- Reads one byte: what is now complete, and what is still open. A byte that does not continue an
unfinished character ends it as a maximal subpart and is looked at afresh. -/
def decodeByte : Option Unfinished → UInt8 → List Char × Option Unfinished
  | none, b => beginChar b
  | some u, b =>
    if u.next.1 ≤ b.toNat ∧ b.toNat ≤ u.next.2 then
      let value := u.value * 64 + b.toNat % 64
      match u.later with
      | [] => ([Char.ofNat value], none)
      | r :: rs => ([], some ⟨value, r, rs⟩)
    else
      let (cs, open?) := beginChar b
      (replacement :: cs, open?)

/-- Decodes the bytes that follow an unfinished character, if there is one. -/
def decodeFrom : Option Unfinished → List UInt8 → List Char
  | none, [] => []
  | some _, [] => [replacement]
  | open?, b :: bs =>
    let (cs, open?) := decodeByte open? b
    cs ++ decodeFrom open? bs

/-- Reads bytes as UTF-8, with U+FFFD for every maximal subpart that is no character. -/
def decodeLossy (bytes : List UInt8) : List Char :=
  decodeFrom none bytes

/-- All bytes are below `0x80`. -/
def isAscii (bytes : List UInt8) : Bool :=
  bytes.all (· < 0x80)

/-- Reads bytes as UTF-8, if they are well-formed. -/
def decode? (bytes : List UInt8) : Option String :=
  let text := String.ofList (decodeLossy bytes)
  if encode text = bytes then some text else none

/-! ## Laws -/

/-- On ASCII bytes decoding is one character per byte. -/
theorem decodeLossy_of_isAscii {bytes : List UInt8} (h : isAscii bytes = true) :
    decodeLossy bytes = bytes.map fun b => Char.ofNat b.toNat := by
  unfold decodeLossy
  induction bytes with
  | nil => rfl
  | cons b bs ih =>
    simp only [isAscii, List.all_cons, Bool.and_eq_true, decide_eq_true_eq] at h
    have hb : b.toNat < 0x80 := h.1
    simp [decodeFrom, decodeByte, beginChar, hb, ih h.2]

end BoardBench.Text
