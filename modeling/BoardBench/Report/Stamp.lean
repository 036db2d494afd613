import BoardBench.Text.Decimal

/-!
# Time stamps

A local time to the microsecond, as the names of reports show it. A nanosecond count of a second or
more stands for a leap second, which is shown as one second later; what is finer than a microsecond
is cut off.

The fields are plain numbers and no valid date is asked for, as a stamp is only ever shown. What can
be read back from it is what it shows.
-/

set_option autoImplicit false

namespace BoardBench

/-- A local time. -/
structure Stamp where
  year : Int
  month : Nat
  day : Nat
  hour : Nat
  minute : Nat
  second : Nat
  nanosecond : Nat
deriving Repr, DecidableEq

namespace Stamp

def nanosPerSecond : Nat := 1000000000

/-- The second as it is shown: one more for a leap second. -/
def shownSecond (s : Stamp) : Nat :=
  s.second + s.nanosecond / nanosPerSecond

def microsecond (s : Stamp) : Nat :=
  s.nanosecond % nanosPerSecond / 1000

/-- A year: at least four digits, with a sign if it is not from 0 to 9999. -/
def yearText (year : Int) : String :=
  if year < 0 then "-" ++ Text.paddedDecimal 4 year.natAbs
  else if 9999 < year then "+" ++ Text.paddedDecimal 4 year.natAbs
  else Text.paddedDecimal 4 year.natAbs

/-- The text of a time stamp, such as `2024-05-17T09:03:07.123456`. -/
def render (s : Stamp) : String :=
  yearText s.year ++ "-" ++ Text.paddedDecimal 2 s.month ++ "-" ++ Text.paddedDecimal 2 s.day
    ++ "T" ++ Text.paddedDecimal 2 s.hour ++ ":" ++ Text.paddedDecimal 2 s.minute ++ ":"
    ++ Text.paddedDecimal 2 s.shownSecond ++ "." ++ Text.paddedDecimal 6 s.microsecond

end Stamp

end BoardBench
