import BoardBench.Text.Printable

/-!
# Quoted text

A text between double quotes in which everything that a reader could not see or tell apart is an
escape: the tab, the line ends and NUL by name, a quote or a backslash behind a backslash, and the
other characters of the escape table by code point in hexadecimal.
-/

set_option autoImplicit false

namespace BoardBench.Text

def quotedChar (c : Char) : List Char :=
  if c = '\t' then ['\\', 't']
  else if c = '\r' then ['\\', 'r']
  else if c = '\n' then ['\\', 'n']
  else if c.toNat = 0 then ['\\', '0']
  else if c = '"' ∨ c = '\\' then ['\\', c]
  else if isEscaped c then ['\\', 'u', '\x7b'] ++ Nat.toDigits 16 c.toNat ++ ['\x7d']
  else [c]

/-- The text in double quotes, escaped. -/
def quoted (text : String) : String :=
  String.ofList ('"' :: text.toList.flatMap quotedChar ++ ['"'])

end BoardBench.Text
