import RowQuery.Calendar.Interval

/-!
# Dates and times

Days of the Gregorian calendar, extended to all years between -262143 and
262142.  `dayNumber` counts days from the first of March of year zero;
`ofDayNumber?` finds the date of a day.  A time of day is in whole seconds and
nanoseconds; a leap second, which can only be at the end of a minute, is the
second before it with a billion nanoseconds or more.  A moment is a date
together with a time of day, without a time zone.
-/

namespace RowQuery.Calendar

/-! ## Dates -/

/-- A leap year has a 29th of February. -/
def isLeapYear (year : Int) : Bool :=
  year % 4 == 0 && (year % 100 != 0 || year % 400 == 0)

/-- The number of days of a month. -/
def daysInMonth (year : Int) (month : Nat) : Nat :=
  if month = 2 then if isLeapYear year then 29 else 28
  else if month = 4 ∨ month = 6 ∨ month = 9 ∨ month = 11 then 30
  else 31

/-- The year, month and day name a day of the calendar. -/
def IsDate (year : Int) (month day : Nat) : Prop :=
  -262143 ≤ year ∧ year ≤ 262142 ∧ 1 ≤ month ∧ month ≤ 12 ∧
    1 ≤ day ∧ day ≤ daysInMonth year month

instance (year : Int) (month day : Nat) : Decidable (IsDate year month day) := by
  unfold IsDate
  infer_instance

/-- A day of the calendar. -/
structure Date where
  year : Int
  month : Nat
  day : Nat
  valid : IsDate year month day
  deriving DecidableEq

namespace Date

/-- The date with this year, month and day, if there is one. -/
def make? (year : Int) (month day : Nat) : Option Date :=
  if h : IsDate year month day then some ⟨year, month, day, h⟩ else none

/-- Days since the first of March of year zero.  Counting years from March puts
the leap day at the end of the year. -/
def dayNumber (d : Date) : Int :=
  let year := if d.month ≤ 2 then d.year - 1 else d.year
  let month : Int := if d.month ≤ 2 then d.month + 9 else d.month - 3
  365 * year + year / 4 - year / 100 + year / 400 + (153 * month + 2) / 5 + d.day - 1

/-- The number of the first of January 1970. -/
def unixDay : Int := 719468

/-- The date of a day number, if its year is in range. -/
def ofDayNumber? (number : Int) : Option Date :=
  let era := number / 146097
  let dayOfEra := number % 146097
  let yearOfEra :=
    (dayOfEra - dayOfEra / 1460 + dayOfEra / 36524 - dayOfEra / 146096) / 365
  let dayOfYear := dayOfEra - (365 * yearOfEra + yearOfEra / 4 - yearOfEra / 100)
  let month := (5 * dayOfYear + 2) / 153
  let day := dayOfYear - (153 * month + 2) / 5 + 1
  let year := yearOfEra + era * 400
  if month < 10 then make? year (month + 3).toNat day.toNat
  else make? (year + 1) (month - 9).toNat day.toNat

/-- The date so many days later. -/
def addDays? (d : Date) (days : Int) : Option Date :=
  ofDayNumber? (d.dayNumber + days)

/-- The date after the whole days of an interval. -/
def add? (d : Date) (i : Interval) : Option Date :=
  d.addDays? i.wholeDays

/-- The date before the whole days of an interval. -/
def sub? (d : Date) (i : Interval) : Option Date :=
  d.addDays? (-i.wholeDays)

/-- The days from `b` to `a` as an interval. -/
def since? (a b : Date) : Option Interval :=
  Interval.ofSeconds? ((a.dayNumber - b.dayNumber) * 86400)

/-- Earlier dates come first. -/
def compare (a b : Date) : Ordering :=
  (Ord.compare a.year b.year).then
    ((Ord.compare a.month b.month).then (Ord.compare a.day b.day))

/-- A year in four digits, with a sign outside of 0 to 9999. -/
def yearText (year : Int) : String :=
  if 0 ≤ year ∧ year ≤ 9999 then Number.paddedText 4 year.toNat
  else if year < 0 then "-" ++ Number.paddedText 4 year.natAbs
  else "+" ++ Number.paddedText 4 year.natAbs

/-- A date as year, month and day with hyphens. -/
def toText (d : Date) : String :=
  yearText d.year ++ "-" ++ Number.paddedText 2 d.month ++ "-" ++
    Number.paddedText 2 d.day

end Date

/-! ## Times of day -/

/-- A time of day. -/
structure Clock where
  seconds : Nat
  nanos : Nat
  seconds_lt : seconds < 86400
  nanos_lt : nanos < 2000000000
  leap : 1000000000 ≤ nanos → seconds % 60 = 59
  deriving DecidableEq

namespace Clock

/-- The time with these seconds of the day and nanoseconds, if in range. -/
def make? (seconds nanos : Nat) : Option Clock :=
  if h : seconds < 86400 ∧ nanos < 2000000000 ∧ (1000000000 ≤ nanos → seconds % 60 = 59) then
    some ⟨seconds, nanos, h.1, h.2.1, h.2.2⟩
  else none

/-- The start of the day. -/
def midnight : Clock := ⟨0, 0, by decide, by decide, by decide⟩

/-- The time with these fields, where a second of sixty is a leap second. -/
def ofFields? (hour minute second nano : Nat) : Option Clock :=
  if 23 < hour ∨ 59 < minute ∨ 60 < second ∨ 999999999 < nano then none
  else if second = 60 then
    make? (hour * 3600 + minute * 60 + 59) (1000000000 + nano)
  else make? (hour * 3600 + minute * 60 + second) nano

/-- The hour of the day. -/
def hour (c : Clock) : Nat := c.seconds / 3600

/-- The minute of the hour. -/
def minute (c : Clock) : Nat := c.seconds / 60 % 60

/-- The second of the minute, not counting a leap second. -/
def second (c : Clock) : Nat := c.seconds % 60

/-- Earlier times come first. -/
def compare (a b : Clock) : Ordering :=
  (Ord.compare a.seconds b.seconds).then (Ord.compare a.nanos b.nanos)

/-- The second as it is written, sixty for a leap second. -/
def shownSecond (c : Clock) : Nat :=
  if c.nanos < 1000000000 then c.second else c.second + 1

/-- The fraction of the second as it is written, in nanoseconds. -/
def shownNanos (c : Clock) : Nat :=
  c.nanos % 1000000000

/-- Hours, minutes and seconds in two digits each with colons. -/
def secondsText (c : Clock) : String :=
  Number.paddedText 2 c.hour ++ ":" ++ Number.paddedText 2 c.minute ++ ":" ++
    Number.paddedText 2 c.shownSecond

/-- A fraction of a second in three, six or nine digits, the fewest that are
exact, or nothing for zero. -/
def fractionText (nanos : Nat) : String :=
  if nanos = 0 then ""
  else if nanos % 1000000 = 0 then "." ++ Number.paddedText 3 (nanos / 1000000)
  else if nanos % 1000 = 0 then "." ++ Number.paddedText 6 (nanos / 1000)
  else "." ++ Number.paddedText 9 nanos

/-- A time of day with its exact fraction. -/
def toText (c : Clock) : String :=
  c.secondsText ++ fractionText c.shownNanos

/-- The interval from `b` to `a` on one day.  A leap second between the two
counts. -/
def sinceNanos (a b : Clock) : Int :=
  let leap : Int :=
    if b.seconds < a.seconds ∧ 1000000000 ≤ b.nanos then 1
    else if a.seconds < b.seconds ∧ 1000000000 ≤ a.nanos then -1
    else 0
  ((a.seconds : Int) - b.seconds + leap) * 1000000000 + (a.nanos - b.nanos)

/-- Seconds and nanoseconds of a time that is about to be moved.  Moving out of
a leap second turns it into an ordinary one; `none` if the move stays inside. -/
def leaveLeap (c : Clock) (seconds nanos : Int) : Option (Int × Int) :=
  if c.nanos < 1000000000 then some (c.seconds, c.nanos)
  else if 0 < seconds ∨ (0 < nanos ∧ 2000000000 - nanos ≤ c.nanos) then
    some (c.seconds, c.nanos - 1000000000)
  else if seconds < 0 then some (c.seconds + 1, c.nanos - 1000000000)
  else none

/-- The time of day an interval later, and the number of days passed. -/
def add? (c : Clock) (i : Interval) : Option (Clock × Int) :=
  match c.leaveLeap i.wholeSeconds i.restNanos with
  | none => (make? c.seconds (c.nanos + i.restNanos).toNat).map fun c => (c, 0)
  | some (seconds, nanos) =>
      let total := (seconds + i.wholeSeconds) * 1000000000 + nanos + i.restNanos
      let second := total / 1000000000
      (make? (second % 86400).toNat (total % 1000000000).toNat).map fun c =>
        (c, second / 86400)

end Clock

/-! ## Moments -/

/-- A date and a time of day. -/
structure Moment where
  date : Date
  clock : Clock
  deriving DecidableEq

namespace Moment

/-- Earlier moments come first. -/
def compare (a b : Moment) : Ordering :=
  (a.date.compare b.date).then (a.clock.compare b.clock)

/-- The moment an interval later. -/
def add? (m : Moment) (i : Interval) : Option Moment := do
  let (clock, days) ← m.clock.add? i
  let date ← m.date.addDays? days
  return ⟨date, clock⟩

/-- The moment an interval earlier. -/
def sub? (m : Moment) (i : Interval) : Option Moment :=
  m.add? i.negate

/-- The interval from `b` to `a`. -/
def since? (a b : Moment) : Option Interval :=
  Interval.ofNanos? ((a.date.dayNumber - b.date.dayNumber) * 86400000000000 +
    a.clock.sinceNanos b.clock)

/-- The moment so many seconds after the start of 1970. -/
def ofUnixSeconds? (seconds : Int) : Option Moment := do
  let date ← Date.ofDayNumber? (Date.unixDay + seconds / 86400)
  let clock ← Clock.make? (seconds % 86400).toNat 0
  return ⟨date, clock⟩

/-- Date and time with a text between. -/
def toText (m : Moment) (between : String) : String :=
  m.date.toText ++ between ++ m.clock.toText

end Moment

end RowQuery.Calendar
