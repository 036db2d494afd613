/-!
# Blank characters, trimming and fields

Device lines are cut at *blank* characters: those with the Unicode property `White_Space`, of
which core's `Char.isWhitespace` knows only the four ASCII ones. Trimming takes characters off
the ends of a text, and `nextField` splits the next field off its front.

Everything works on lists of characters, so that a fact about a text is a fact about its list.
-/

set_option autoImplicit false

namespace BoardBench.Text

/-- The characters with the Unicode property `White_Space`. -/
def isBlank (c : Char) : Bool :=
  let n := c.toNat
  (9 ≤ n && n ≤ 13) || n == 0x20 || n == 0x85 || n == 0xA0 || n == 0x1680
    || (0x2000 ≤ n && n ≤ 0x200A) || n == 0x2028 || n == 0x2029 || n == 0x202F || n == 0x205F
    || n == 0x3000

/-- Drops the longest run of characters satisfying `p` at the end. -/
def dropTrailing (p : Char → Bool) (cs : List Char) : List Char :=
  (cs.reverse.dropWhile p).reverse

/-- Drops the longest runs of characters satisfying `p` at both ends. -/
def stripBoth (p : Char → Bool) (cs : List Char) : List Char :=
  dropTrailing p (cs.dropWhile p)

def trimStart (cs : List Char) : List Char :=
  cs.dropWhile isBlank

def trim (cs : List Char) : List Char :=
  stripBoth isBlank cs

/-- Splits the next field off: blanks in front are dropped, the field is the run of characters
up to the next blank, and the rest starts with that blank. A run that ends with the text is no
field, since nothing separates it from what should follow. -/
def nextField (cs : List Char) : Option (List Char × List Char) :=
  let body := trimStart cs
  let rest := body.dropWhile (!isBlank ·)
  if rest.isEmpty then none else some (body.takeWhile (!isBlank ·), rest)

/-! ## What trimming leaves -/

@[simp] theorem dropTrailing_nil (p : Char → Bool) : dropTrailing p [] = [] := rfl

/-- A text is what trimming at the end leaves, followed by dropped characters. -/
theorem dropTrailing_append_dropped (p : Char → Bool) (cs : List Char) :
    dropTrailing p cs ++ (cs.reverse.takeWhile p).reverse = cs := by
  rw [dropTrailing, ← List.reverse_append, List.takeWhile_append_dropWhile, List.reverse_reverse]

/-- A field and its rest are a cut of the text without its leading blanks. -/
theorem nextField_append {cs field rest : List Char} (h : nextField cs = some (field, rest)) :
    field ++ rest = trimStart cs := by
  simp only [nextField] at h
  split at h
  · cases h
  · cases h
    exact List.takeWhile_append_dropWhile

end BoardBench.Text
