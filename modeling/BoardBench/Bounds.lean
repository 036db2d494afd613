/-!
# Bounds

A closed interval of whole milliseconds, within which the time between two events has to lie. An
interval whose least value exceeds its greatest contains nothing.

The bounds are integers, since a clock may go back between two stamps and the time between them is
negative then. Reversed bounds can be built, as a document may state them; they are refused by
`Config.validate`.
-/

set_option autoImplicit false

namespace BoardBench

/-- The interval from `min` to `max`, both included, in milliseconds. -/
structure Bounds where
  min : Int
  max : Int
deriving Repr, DecidableEq

namespace Bounds

def contains (b : Bounds) (v : Int) : Bool :=
  b.min ≤ v && v ≤ b.max

/-- The interval has a member. -/
def isProper (b : Bounds) : Bool :=
  b.min ≤ b.max

theorem contains_iff {b : Bounds} {v : Int} : b.contains v = true ↔ b.min ≤ v ∧ v ≤ b.max := by
  simp [contains]

end Bounds

end BoardBench
