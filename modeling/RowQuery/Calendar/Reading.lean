import RowQuery.Calendar.Moment
import RowQuery.Text.Pieces

/-!
# Reading dates and times

A small language of written forms: fields with a fixed largest width, literal
characters, runs of blanks, an optional fraction of a second and an offset from
universal time.  Blanks before a numeric field are skipped.  A text has a form
if the form describes all of it and the fields name a date or a time.
-/

namespace RowQuery.Calendar

open RowQuery.Number

/-- One part of a written form. -/
inductive FormPart where
  | year
  | month
  | day
  | hour
  | minute
  | second
  /-- An optional point with digits; those after the ninth are not kept. -/
  | fraction
  /-- An offset such as `+05:30`, `-0800`, `+02` or `Z`. -/
  | offset
  | blanks
  | literal (c : Char)
  deriving DecidableEq

/-- The fields found in a text; `offset` is in seconds east. -/
structure Fields where
  year : Int := 0
  month : Nat := 0
  day : Nat := 0
  hour : Nat := 0
  minute : Nat := 0
  second : Nat := 0
  nano : Nat := 0
  offset : Int := 0

/-- The largest number that a numeric field may hold. -/
def largestField : Nat := 0x7FFFFFFFFFFFFFFF

/-- Read between one and `most` digits. -/
def readDigits? (most : Nat) (text : List Char) : Option (Nat × List Char) :=
  let found := (text.take most).takeWhile isDigit
  if found.isEmpty then none
  else
    let value := digitsValue found
    if largestField < value then none else some (value, text.drop found.length)

/-- Read a year: up to four digits, or any number of them after a sign. -/
def readYear? (text : List Char) : Option (Int × List Char) :=
  let found : Option (Int × List Char) :=
    match text with
    | '-' :: rest =>
        (readDigits? rest.length rest).map fun (n, more) => (-(n : Int), more)
    | '+' :: rest =>
        (readDigits? rest.length rest).map fun (n, more) => ((n : Int), more)
    | _ => (readDigits? 4 text).map fun (n, more) => ((n : Int), more)
  found.filter fun (year, _) => -0x80000000 ≤ year && year < 0x80000000

/-- Read the digits of a fraction as nanoseconds. -/
def readNanos? (text : List Char) : Option (Nat × List Char) :=
  let found := (text.take 9).takeWhile isDigit
  if found.isEmpty then none
  else
    some (digitsValue found * Nat.pow 10 (9 - found.length), text.dropWhile isDigit)

/-- Read the minutes of an offset, which may be missing at the end of the text
if `required` is false. -/
def readOffsetMinutes? (required : Bool) : List Char → Option (Nat × List Char)
  | m :: n :: rest =>
      if isDigit m && isDigit n && digitOf m ≤ 5 then
        some (digitOf m * 10 + digitOf n, rest)
      else none
  | [] => if required then none else some (0, [])
  | [_] => none

/-- Read an offset from universal time in seconds.  `separator` consumes what
stands between hours and minutes. -/
def readOffset? (separator : List Char → Option (List Char)) (minutesRequired : Bool)
    (text : List Char) : Option (Int × List Char) :=
  match text with
  | 'Z' :: rest => some (0, rest)
  | 'z' :: rest => some (0, rest)
  | sign :: h :: g :: rest =>
      if (sign = '+' ∨ sign = '-' ∨ sign = '−') ∧ isDigit h ∧ isDigit g then do
        let rest ← separator rest
        let (minutes, rest) ← readOffsetMinutes? minutesRequired rest
        let seconds : Int := (digitOf h * 10 + digitOf g) * 3600 + minutes * 60
        return (if sign = '+' then seconds else -seconds, rest)
      else none
  | _ => none

def skipColons (text : List Char) : Option (List Char) :=
  some (text.dropWhile fun c => c == ':' || Text.isBlank c)

/-- Read a numeric field of at most two digits after blanks. -/
def readPair? (text : List Char) : Option (Nat × List Char) :=
  readDigits? 2 (text.dropWhile Text.isBlank)

def FormPart.read? (part : FormPart) (fields : Fields) (text : List Char) :
    Option (Fields × List Char) :=
  match part with
  | .year =>
      (readYear? (text.dropWhile Text.isBlank)).map fun (n, rest) =>
        ({ fields with year := n }, rest)
  | .month => (readPair? text).map fun (n, rest) => ({ fields with month := n }, rest)
  | .day => (readPair? text).map fun (n, rest) => ({ fields with day := n }, rest)
  | .hour => (readPair? text).map fun (n, rest) => ({ fields with hour := n }, rest)
  | .minute => (readPair? text).map fun (n, rest) => ({ fields with minute := n }, rest)
  | .second => (readPair? text).map fun (n, rest) => ({ fields with second := n }, rest)
  | .fraction =>
      match text with
      | '.' :: rest =>
          (readNanos? rest).map fun (n, rest) => ({ fields with nano := n }, rest)
      | _ => some (fields, text)
  | .offset =>
      (readOffset? skipColons false (text.dropWhile Text.isBlank)).map fun (n, rest) =>
        ({ fields with offset := n }, rest)
  | .blanks => some (fields, text.dropWhile Text.isBlank)
  | .literal c =>
      match text with
      | d :: rest => if c = d then some (fields, rest) else none
      | [] => none

/-- Read a text of the given form to its end. -/
def readForm? (form : List FormPart) (text : List Char) : Option Fields :=
  let rec go : List FormPart → Fields → List Char → Option Fields
    | [], fields, rest => if rest.isEmpty then some fields else none
    | part :: parts, fields, rest =>
        (part.read? fields rest).bind fun (fields, rest) => go parts fields rest
  go form {} text

/-- The date that the fields name. -/
def Fields.date? (f : Fields) : Option Date :=
  Date.make? f.year f.month f.day

/-- The time of day that the fields name. -/
def Fields.clock? (f : Fields) : Option Clock :=
  Clock.ofFields? f.hour f.minute f.second f.nano

/-- The moment that the fields name, in local time. -/
def Fields.moment? (f : Fields) : Option Moment := do
  let date ← f.date?
  let clock ← f.clock?
  return ⟨date, clock⟩

/-- The moment that the fields name, in universal time.  Offsets stay below a
day. -/
def Fields.universal? (f : Fields) : Option Moment := do
  let moment ← f.moment?
  if f.offset ≤ -86400 || 86400 ≤ f.offset then none
  else
    let seconds := moment.clock.seconds - f.offset
    let date ← moment.date.addDays? (seconds / 86400)
    let clock ← Clock.make? (seconds % 86400).toNat moment.clock.nanos
    return ⟨date, clock⟩

/-- A date as `2024-05-06`. -/
def dateForm : List FormPart :=
  [.year, .literal '-', .month, .literal '-', .day]

/-- A time of day as `10:20:30.5`. -/
def clockForm : List FormPart :=
  [.hour, .literal ':', .minute, .literal ':', .second, .fraction]

/-- A time of day as `10:20`. -/
def shortClockForm : List FormPart :=
  [.hour, .literal ':', .minute]

/-- Read exactly `count` digits. -/
def readExactly? (count : Nat) (text : List Char) : Option (Nat × List Char) :=
  let found := text.take count
  if found.length = count && found.all isDigit then
    some (digitsValue found, text.drop count)
  else none

/-- Read one given character. -/
def readLiteral? (c : Char) : List Char → Option (List Char)
  | d :: rest => if c = d then some rest else none
  | [] => none

/-- Read the internet form of a moment, `2024-05-06T10:20:30.5+02:00`, in
universal time.  The letter between date and time may be small or a space. -/
def readInternet? (text : List Char) : Option Moment := do
  let (year, text) ← readExactly? 4 text
  let text ← readLiteral? '-' text
  let (month, text) ← readExactly? 2 text
  let text ← readLiteral? '-' text
  let (day, text) ← readExactly? 2 text
  let text ←
    match text with
    | c :: rest => if c = 'T' ∨ c = 't' ∨ c = ' ' then some rest else none
    | [] => none
  let (hour, text) ← readExactly? 2 text
  let text ← readLiteral? ':' text
  let (minute, text) ← readExactly? 2 text
  let text ← readLiteral? ':' text
  let (second, text) ← readExactly? 2 text
  let (nano, text) ←
    match text with
    | '.' :: rest => readNanos? rest
    | _ => some (0, text)
  let (offset, text) ← readOffset? (readLiteral? ':') true text
  if !text.isEmpty then none
  else Fields.universal? ⟨year, month, day, hour, minute, second, nano, offset⟩

def readPlainDate? (text : List Char) : Option Date :=
  (readForm? dateForm text).bind Fields.date?

/-- Read a moment: date and time with a blank or `T` between, an optional
fraction and an optional offset, which is converted to universal time; or a
date alone, which is its midnight. -/
def readMoment? (text : String) : Option Moment :=
  let text := Text.trimChars text.toList
  let spaced := dateForm ++ .blanks :: clockForm
  let lettered := dateForm ++ .literal 'T' :: clockForm
  (readForm? spaced text).bind Fields.moment?
    <|> (readForm? lettered text).bind Fields.moment?
    <|> (readForm? (dateForm ++ .blanks :: shortClockForm) text).bind Fields.moment?
    <|> readInternet? text
    <|> (readForm? (spaced ++ [.offset]) text).bind Fields.universal?
    <|> (readForm? (lettered ++ [.offset]) text).bind Fields.universal?
    <|> (readPlainDate? text).map fun date => ⟨date, .midnight⟩

/-- Read a date, or the date of a moment. -/
def readDate? (text : String) : Option Date :=
  readPlainDate? (Text.trimChars text.toList)
    <|> (readMoment? text).map Moment.date

/-- Read a time of day, with or without seconds. -/
def readClock? (text : String) : Option Clock :=
  let text := Text.trimChars text.toList
  (readForm? clockForm text).bind Fields.clock?
    <|> (readForm? shortClockForm text).bind Fields.clock?

end RowQuery.Calendar
