import RowQuery.Toml.Scalar

/-!
# Stamps written as tables

A date or time may also be written as a table whose first key is `stampKey`, above
the text of the stamp.  That text is less strict than a stamp in the document: the
hour may be 24, a date alone may have an offset, and an offset may be as long as a
day.
-/

namespace RowQuery.Toml

open RowQuery.Number

/-- The first key of a table that stands for a stamp. -/
def stampKey : String := "$__toml_private_datetime"

/-- The largest offset from universal time, in minutes. -/
def longestOffset : Nat := 24 * 60

/-- Read the time in the text of a stamp. -/
def readLooseTime? (text : List Char) : Option (DayTime × List Char) := do
  let (time, rest) ← readTimeFields? text
  if time.hour ≤ 24 ∧ time.minute ≤ 59 ∧ time.second ≤ 60 then return (time, rest)
  else none

/-- Read the offset of hours and minutes that ends the text of a stamp. -/
def readLooseOffset? (negative : Bool) (text : List Char) : Option String := do
  let (hours, rest) ← readCount? 2 text
  let rest ← readChar? ':' rest
  let (minutes, rest) ← readCount? 2 rest
  let total := hours * 60 + minutes
  if rest.isEmpty ∧ total ≤ longestOffset then return offsetText negative total else none

/-- Read the end of the text of a stamp, which is empty or an offset. -/
def readStampEnd? : List Char → Option (Option String)
  | [] => some none
  | ['Z'] | ['z'] => some (some "Z")
  | '+' :: rest => (readLooseOffset? false rest).map some
  | '-' :: rest => (readLooseOffset? true rest).map some
  | _ => none

/-- Read the text of a stamp that starts with a date. -/
def readDatedStamp? (text : List Char) : Option Stamp := do
  let (date, rest) ← readDate? text
  match skipDayMark? rest with
  | some rest => do
      let (time, rest) ← readLooseTime? rest
      let offset ← readStampEnd? rest
      return { date := some date, time := some time, offset }
  | none => do
      let offset ← readStampEnd? rest
      return { date := some date, time := none, offset }

/-- Read the text of a stamp.  A colon behind two characters tells a time alone. -/
def readStampText? (text : String) : Option Stamp :=
  let text := text.toList
  if text[2]? = some ':' then
    match readLooseTime? text with
    | some (time, []) => some { date := none, time := some time }
    | _ => none
  else readDatedStamp? text

/-- The stamp of a table of which `stampKey` is the first key. -/
def readMarkedStamp? : Toml → Option Toml
  | string text => (readStampText? text).map stamp
  | _ => none

mutual

/-- The value with stamps in place of the tables that stand for them.  A table that
ought to be a stamp but has no stamp as its text is refused. -/
def withStamps? : Toml → Option Toml
  | array items => (itemsWithStamps? items).map array
  | tables items => (itemsWithStamps? items).map tables
  | table origin [] => some (table origin [])
  | table origin ((key, value) :: members) =>
      if key = stampKey then readMarkedStamp? value
      else do
        let value ← withStamps? value
        let members ← membersWithStamps? members
        return table origin ((key, value) :: members)
  | value => some value

/-- The items of an array with stamps in place of tables. -/
def itemsWithStamps? : List Toml → Option (List Toml)
  | [] => some []
  | item :: items => do
      let item ← withStamps? item
      let items ← itemsWithStamps? items
      return item :: items

/-- The further members of a table with stamps in place of tables. -/
def membersWithStamps? : List (String × Toml) → Option (List (String × Toml))
  | [] => some []
  | (key, value) :: members => do
      let value ← withStamps? value
      let members ← membersWithStamps? members
      return (key, value) :: members

end

end RowQuery.Toml
