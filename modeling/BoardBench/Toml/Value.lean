/-!
# TOML values

What a TOML document says, once its spelling is forgotten. Numbers with a fraction and dates keep
the text they were written with, since nothing here computes with them.

A table is a list of entries in the order of the document, and not a map. A key that is given twice
is refused when the document is read, so that it does not matter which entry `lookup` finds first.
-/

set_option autoImplicit false

namespace BoardBench.Toml

/-- A value of a document. The keys of a table differ from each other. -/
inductive Value where
  | text (s : String)
  | integer (n : Int)
  | float (written : String)
  | boolean (b : Bool)
  | date (written : String)
  | array (items : List Value)
  | table (entries : List (String × Value))
deriving Repr, BEq, Inhabited

def lookup (key : String) (entries : List (String × Value)) : Option Value :=
  (entries.find? (·.1 == key)).map (·.2)

end BoardBench.Toml
