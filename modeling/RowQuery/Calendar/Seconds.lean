import RowQuery.Calendar.Interval
import RowQuery.Number.Decimal.Reading
import RowQuery.Text.Pieces

/-!
# Intervals in decimal seconds and in words

An interval as a decimal number of seconds, exact to the microsecond, and the
reading of interval texts such as `1 year 2 mons 3 days 04:05:06.5`.  A year has
365 days and a month 30.
-/

namespace RowQuery.Calendar

open RowQuery.Number

/-- The seconds of an interval, without superfluous zeros.  What is below a
microsecond is cut off; intervals too long for that have whole seconds. -/
def Interval.seconds (i : Interval) : Decimal :=
  match i.micros? with
  | some micros => (Decimal.ofInt64 micros 6 (by decide)).normalize
  | none => Decimal.ofInt (Int64.ofInt i.wholeSeconds)

def million : Decimal := Decimal.ofInt 1000000

/-- The interval of a decimal number of seconds, rounded to microseconds, a half
to the even neighbour. -/
def Interval.ofSecondsDecimal? (seconds : Decimal) : Option Interval := do
  let scaled ← seconds.mul? million
  let micros ← scaled.round.toInt64?
  ofMicros? micros.toInt

/-- The seconds of a unit of time in small letters. -/
def unitSeconds? (name : List Char) : Option Int64 :=
  match String.ofList name with
  | "year" => some 31536000
  | "mon" | "month" => some 2592000
  | "week" => some 604800
  | "day" => some 86400
  | "hour" => some 3600
  | "min" | "minute" => some 60
  | "sec" | "second" => some 1
  | _ => none

/-- A unit of time, possibly in the plural and with commas behind it. -/
def readUnitSeconds? (word : List Char) : Option Int64 :=
  unitSeconds? (Text.dropEndWhile (· == 's')
    (Text.dropEndWhile (· == ',') (word.map Char.toLower)))

/-- Read a whole number of 64 bits. -/
def readWord? (text : List Char) : Option Int64 :=
  (readInt? text).bind word?

/-- Read an unsigned clock: hours and minutes, and seconds if there are any. -/
def readClockFields? (body : List Char) : Option Interval := do
  let (hours, rest) ← Text.cutAt? (· == ':') body
  let (minutes, seconds) :=
    match Text.cutAt? (· == ':') rest with
    | some (minutes, seconds) => (minutes, seconds)
    | none => (rest, ['0'])
  let hours ← readWord? hours
  let minutes ← readWord? minutes
  let seconds ← Decimal.read? seconds
  let hours ← Interval.ofSeconds? (hours.toInt * 3600)
  let minutes ← Interval.ofSeconds? (minutes.toInt * 60)
  let whole ← hours.add? minutes
  let seconds ← Interval.ofSecondsDecimal? seconds
  whole.add? seconds

def readSignedClock? : List Char → Option Interval
  | '-' :: body => (readClockFields? body).map Interval.negate
  | text => readClockFields? (text.dropWhile (· == '+'))

/-- Read a sequence of clocks and amounts with units, and add them to `total`. -/
def readParts? (total : Interval) : List (List Char) → Option Interval
  | [] => some total
  | [word] => do
      if word.contains ':' then
        let clock ← readSignedClock? word
        total.add? clock
      else none
  | word :: next :: rest => do
      if word.contains ':' then
        let clock ← readSignedClock? word
        let total ← total.add? clock
        readParts? total (next :: rest)
      else
        let amount ← Decimal.read? word
        let unit ← readUnitSeconds? next
        let seconds ← amount.mul? (Decimal.ofInt unit)
        let part ← Interval.ofSecondsDecimal? seconds
        let total ← total.add? part
        readParts? total rest
termination_by words => words.length

/-- Read an interval: a decimal number of seconds, or parts with units. -/
def readInterval? (text : String) : Option Interval :=
  let text := Text.trimChars text.toList
  match Decimal.read? text with
  | some seconds => Interval.ofSecondsDecimal? seconds
  | none => readParts? Interval.zero (Text.words text)

end RowQuery.Calendar
