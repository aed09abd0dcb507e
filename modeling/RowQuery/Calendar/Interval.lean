import RowQuery.Number.Digits

/-!
# Lengths of time

Signed lengths of time, exact to the nanosecond and at most `2 ^ 63 - 1`
milliseconds long.
-/

namespace RowQuery.Calendar

/-- The longest interval in nanoseconds. -/
def longest : Int := 0x7FFFFFFFFFFFFFFF * 1000000

/-- A signed length of time. -/
structure Interval where
  nanos : Int
  inRange : -longest ≤ nanos ∧ nanos ≤ longest
  deriving DecidableEq

namespace Interval

/-- The interval of so many nanoseconds, if it is short enough. -/
def ofNanos? (nanos : Int) : Option Interval :=
  if h : -longest ≤ nanos ∧ nanos ≤ longest then some ⟨nanos, h⟩ else none

def zero : Interval := ⟨0, by decide⟩

/-- The interval of so many microseconds, if it is short enough. -/
def ofMicros? (micros : Int) : Option Interval :=
  ofNanos? (micros * 1000)

/-- The interval of so many seconds, if it is short enough. -/
def ofSeconds? (seconds : Int) : Option Interval :=
  ofNanos? (seconds * 1000000000)

/-- Whole seconds, cut off toward zero. -/
def wholeSeconds (i : Interval) : Int :=
  Int.tdiv i.nanos 1000000000

/-- Nanoseconds beyond the whole seconds, with the sign of the interval. -/
def restNanos (i : Interval) : Int :=
  Int.tmod i.nanos 1000000000

/-- Whole days, cut off toward zero. -/
def wholeDays (i : Interval) : Int :=
  Int.tdiv i.nanos 86400000000000

/-- Whole microseconds, cut off toward zero, if they fit 64 bits. -/
def micros? (i : Interval) : Option Int64 :=
  Number.word? (Int.tdiv i.nanos 1000)

/-- The interval in the other direction. -/
def negate (i : Interval) : Interval :=
  ⟨-i.nanos, by
    have := i.inRange
    omega⟩

/-- The length without its sign. -/
def abs (i : Interval) : Interval :=
  if i.nanos < 0 then i.negate else i

/-- The sum, if it is short enough. -/
def add? (a b : Interval) : Option Interval :=
  ofNanos? (a.nanos + b.nanos)

/-- The difference, if it is short enough. -/
def sub? (a b : Interval) : Option Interval :=
  ofNanos? (a.nanos - b.nanos)

/-- Shorter intervals, and earlier negative ones, come first. -/
def compare (a b : Interval) : Ordering :=
  Ord.compare a.nanos b.nanos

end Interval

end RowQuery.Calendar
