import RowQuery.Calendar.Moment

/-!
# TOML documents

Values of settings files.  A table remembers how it came about, because that
decides what may be added to it later in a file.
-/

namespace RowQuery

open RowQuery.Calendar RowQuery.Number

/-- A time of day as it is written.  The hour may be 24, which no clock shows. -/
structure DayTime where
  hour : Nat
  minute : Nat
  second : Nat
  nanos : Nat
  deriving DecidableEq

namespace DayTime

/-- The time on a clock, if there is one. -/
def clock? (t : DayTime) : Option Clock :=
  Clock.ofFields? t.hour t.minute t.second t.nanos

/-- A fraction of a second without trailing zeros. -/
def fractionText (nanos : Nat) : String :=
  if nanos = 0 then ""
  else
    "." ++ String.ofList
      ((padZeros 9 (digits nanos)).reverse.dropWhile (· == '0')).reverse

/-- The written form. -/
def toText (t : DayTime) : String :=
  paddedText 2 t.hour ++ ":" ++ paddedText 2 t.minute ++ ":" ++ paddedText 2 t.second ++
    fractionText t.nanos

end DayTime

/-- A date, a time, or both, perhaps with an offset from universal time. -/
structure Stamp where
  date : Option Date
  time : Option DayTime
  /-- The offset as it is written. -/
  offset : Option String := none
  deriving DecidableEq

namespace Stamp

/-- The written form. -/
def toText (s : Stamp) : String :=
  let date := (s.date.map Date.toText).getD ""
  let time := (s.time.map DayTime.toText).getD ""
  date ++ (if s.date.isSome && s.time.isSome then "T" else "") ++ time ++ s.offset.getD ""

end Stamp

/-- How a table came about. -/
inductive TableOrigin where
  /-- Written as a value; nothing can be added. -/
  | inline
  /-- Written under a header. -/
  | header
  /-- On the way to a table with a header. -/
  | implied
  /-- On the way to a dotted key. -/
  | dotted
  deriving DecidableEq

/-- A value of a document. -/
inductive Toml where
  | string (value : String)
  | integer (value : Int64)
  | float (value : Float)
  | boolean (value : Bool)
  | stamp (value : Stamp)
  | array (items : List Toml)
  /-- Tables that all have the same header. -/
  | tables (items : List Toml)
  | table (origin : TableOrigin) (members : List (String × Toml))

end RowQuery
