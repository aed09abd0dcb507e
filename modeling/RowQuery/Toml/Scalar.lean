import RowQuery.Json.Reading
import RowQuery.Text.Pieces
import RowQuery.Toml

/-!
# Strings, numbers and dates of TOML documents

Readers for the values without parts.
-/

namespace RowQuery.Toml

open RowQuery.Calendar RowQuery.Number

/-- A character that may stand in a line: no control but the tab. -/
def isPlain (c : Char) : Bool :=
  c == '\t' || (32 ≤ c.toNat && c.toNat ≠ 127)

/-- A blank inside a line. -/
def isSpace (c : Char) : Bool :=
  c == ' ' || c == '\t'

/-- Skip the end of a line. -/
def newline? : List Char → Option (List Char)
  | '\n' :: rest => some rest
  | '\r' :: '\n' :: rest => some rest
  | _ => none

/-- The number of some hexadecimal digits. -/
def hexNumber? (digits : List Char) : Option Nat :=
  digits.foldlM (fun n c => (Json.hexValue? c).map fun d => n * 16 + d) 0

/-- A character by its number, which must not be a surrogate. -/
def charOfNumber? (n : Nat) : Option Char :=
  if n < 0xD800 ∨ (0xDFFF < n ∧ n < 0x110000) then some (Char.ofNat n) else none

/-- The character of an escape by number with so many digits. -/
def readPoint? (count : Nat) (text : List Char) : Option (Char × List Char) := do
  if text.length < count then none
  else
    let n ← hexNumber? (text.take count)
    let c ← charOfNumber? n
    return (c, text.drop count)

/-- The character of an escape behind its backslash. -/
def readEscape? : List Char → Option (Char × List Char)
  | 'b' :: rest => some (Char.ofNat 8, rest)
  | 't' :: rest => some ('\t', rest)
  | 'n' :: rest => some ('\n', rest)
  | 'f' :: rest => some (Char.ofNat 12, rest)
  | 'r' :: rest => some ('\r', rest)
  | '"' :: rest => some ('"', rest)
  | '\\' :: rest => some ('\\', rest)
  | 'u' :: rest => readPoint? 4 rest
  | 'U' :: rest => readPoint? 8 rest
  | _ => none

/-- Read a string of one line behind its opening quotation mark; `found` holds the
earlier characters in reverse. -/
def readLineString? (found : List Char) : Nat → List Char → Option (String × List Char)
  | 0, _ => none
  | _ + 1, [] => none
  | fuel + 1, c :: rest =>
      if c = '"' then some (String.ofList found.reverse, rest)
      else if c = '\\' then
        (readEscape? rest).bind fun (c, rest) => readLineString? (c :: found) fuel rest
      else if isPlain c then readLineString? (c :: found) fuel rest
      else none

/-- Read a string without escapes behind its opening apostrophe. -/
def readLineLiteral? : List Char → Option (String × List Char)
  | [] => none
  | c :: rest =>
      if c = '\'' then some ("", rest)
      else if isPlain c then
        (readLineLiteral? rest).map fun (text, rest) => (String.singleton c ++ text, rest)
      else none

/-- Skip blanks and ends of lines. -/
def skipLines : Nat → List Char → List Char
  | 0, text => text
  | fuel + 1, text =>
      match newline? (text.dropWhile isSpace) with
      | some rest => skipLines fuel rest
      | none => text.dropWhile isSpace

/-- What follows a backslash at the end of a line: all blanks and line ends. -/
def skipLineEnd? (text : List Char) : Option (List Char) :=
  (newline? (text.dropWhile isSpace)).map fun rest => skipLines rest.length rest

/-- The closing marks of a string of several lines, of which up to two more belong
to the string. -/
def readClosing? (mark : Char) (text : List Char) : Option (List Char × List Char) :=
  let count := min (text.takeWhile (· == mark)).length 5
  if count < 3 then none else some (List.replicate (count - 3) mark, text.drop count)

/-- Read a string of several lines; `escapes` tells whether backslashes escape. -/
def readBlockBody? (mark : Char) (escapes : Bool) (found : List Char) :
    Nat → List Char → Option (String × List Char)
  | 0, _ => none
  | _ + 1, [] => none
  | fuel + 1, c :: rest =>
      match readClosing? mark (c :: rest) with
      | some (more, rest) => some (String.ofList (found.reverse ++ more), rest)
      | none =>
          if c = '\\' ∧ escapes then
            match skipLineEnd? rest with
            | some rest => readBlockBody? mark escapes found fuel rest
            | none =>
                (readEscape? rest).bind fun (c, rest) =>
                  readBlockBody? mark escapes (c :: found) fuel rest
          else
            match newline? (c :: rest) with
            | some rest => readBlockBody? mark escapes ('\n' :: found) fuel rest
            | none =>
                if isPlain c then readBlockBody? mark escapes (c :: found) fuel rest else none

/-- Read a string of several lines behind its opening marks.  A line end right
there does not count. -/
def readBlock? (mark : Char) (escapes : Bool) (text : List Char) :
    Option (String × List Char) :=
  let body := (newline? text).getD text
  readBlockBody? mark escapes [] (body.length + 1) body

def readQuoted? : List Char → Option (String × List Char)
  | '"' :: rest => readLineString? [] (rest.length + 1) rest
  | '\'' :: rest => readLineLiteral? rest
  | _ => none

def readString? : List Char → Option (String × List Char)
  | '"' :: '"' :: '"' :: rest => readBlock? '"' true rest
  | '\'' :: '\'' :: '\'' :: rest => readBlock? '\'' false rest
  | text => readQuoted? text

/-- Digits with single underscores between them. -/
def joinedDigits? (isDigit : Char → Bool) (text : List Char) : Option (List Char) :=
  let pieces := Text.splitAll '_' text
  if pieces.all fun piece => !piece.isEmpty && piece.all isDigit then some pieces.flatten
  else none

/-- Digits of a decimal number, which starts with zero only if it is zero. -/
def wholeDigits? (text : List Char) : Option (List Char) :=
  match joinedDigits? isDigit text with
  | some ('0' :: _ :: _) => none
  | digits => digits

def readSign : List Char → Bool × List Char
  | '-' :: rest => (true, rest)
  | '+' :: rest => (false, rest)
  | rest => (false, rest)

/-- A number in base sixteen, eight or two. -/
def readBased? (base : Nat) (text : List Char) : Option Int64 := do
  let digits ← joinedDigits? (fun c => (Json.hexValue? c).any (· < base)) text
  word? (digits.foldl (fun n c => n * base + (Json.hexValue? c).getD 0) 0)

def readInteger? : List Char → Option Int64
  | '0' :: 'x' :: rest => readBased? 16 rest
  | '0' :: 'o' :: rest => readBased? 8 rest
  | '0' :: 'b' :: rest => readBased? 2 rest
  | text => do
      let (negative, body) := readSign text
      let digits ← wholeDigits? body
      let n : Int := digitsValue digits
      word? (if negative then -n else n)

/-- The digits of an exponent with its sign. -/
def readExponentPart? (text : List Char) : Option (List Char) := do
  let digits ← joinedDigits? isDigit (readSign text).2
  return if (readSign text).1 then '-' :: digits else digits

/-- A double that may not be larger than all finite ones. -/
def finiteOrLess? (x : Float) : Option Float :=
  if x == 1.0 / 0.0 then none else some x

/-- The text before a mark and what follows the mark, if it occurs. -/
def cutMark (isMark : Char → Bool) (text : List Char) : List Char × Option (List Char) :=
  match Text.cutAt? isMark text with
  | some (before, after) => (before, some after)
  | none => (text, none)

/-- Read a part that may be missing and write its mark in front again. -/
def readMarked? (mark : Char) (read : List Char → Option (List Char)) :
    Option (List Char) → Option (List Char)
  | some part => (read part).map (mark :: ·)
  | none => some []

/-- Read the digits of a double with a point, an exponent, or both. -/
def readFloatBody? (negative : Bool) (body : List Char) : Option Float := do
  let (mantissa, exponent) := cutMark (fun c => c == 'e' || c == 'E') body
  let exponent ← readMarked? 'e' readExponentPart? exponent
  let (whole, fraction) := cutMark (· == '.') mantissa
  let whole ← wholeDigits? whole
  let fraction ← readMarked? '.' (joinedDigits? isDigit) fraction
  if exponent.isEmpty && fraction.isEmpty then none
  else
    let x ← Binary64.read? (whole ++ fraction ++ exponent)
    finiteOrLess? (if negative then -x else x)

def readFloat? (text : List Char) : Option Float :=
  let (negative, body) := readSign text
  if body = ['i', 'n', 'f'] then some (if negative then -(1.0 / 0.0) else 1.0 / 0.0)
  else if body = ['n', 'a', 'n'] then some (0.0 / 0.0)
  else readFloatBody? negative body

def isNumberChar (c : Char) : Bool :=
  c.isAlphanum || c == '_' || c == '+' || c == '-' || c == '.'

def readNumber? (text : List Char) : Option (Toml × List Char) :=
  let token := text.takeWhile isNumberChar
  let rest := text.dropWhile isNumberChar
  match readFloat? token with
  | some x => some (float x, rest)
  | none => (readInteger? token).map fun i => (integer i, rest)

/-- Read so many digits. -/
def readCount? (count : Nat) (text : List Char) : Option (Nat × List Char) :=
  let front := text.take count
  if front.length = count && front.all isDigit then some (digitsValue front, text.drop count)
  else none

def readChar? (c : Char) : List Char → Option (List Char)
  | d :: rest => if c = d then some rest else none
  | [] => none

def readDate? (text : List Char) : Option (Date × List Char) := do
  let (year, rest) ← readCount? 4 text
  let rest ← readChar? '-' rest
  let (month, rest) ← readCount? 2 rest
  let rest ← readChar? '-' rest
  let (day, rest) ← readCount? 2 rest
  let date ← Date.make? year month day
  return (date, rest)

/-- Read the fraction of a second, in nanoseconds; further digits do not count. -/
def readFraction? : List Char → Option (Nat × List Char)
  | '.' :: rest =>
      let digits := rest.takeWhile isDigit
      if digits.isEmpty then none
      else
        let nanos := digits.take 9
        some (digitsValue nanos * Nat.pow 10 (9 - nanos.length), rest.dropWhile isDigit)
  | text => some (0, text)

/-- Read the fields of a time of day. -/
def readTimeFields? (text : List Char) : Option (DayTime × List Char) := do
  let (hour, rest) ← readCount? 2 text
  let rest ← readChar? ':' rest
  let (minute, rest) ← readCount? 2 rest
  let rest ← readChar? ':' rest
  let (second, rest) ← readCount? 2 rest
  let (nanos, rest) ← readFraction? rest
  return ({ hour, minute, second, nanos }, rest)

/-- Read a time that a clock shows. -/
def readTime? (text : List Char) : Option (DayTime × List Char) := do
  let (time, rest) ← readTimeFields? text
  if time.clock?.isSome then return (time, rest) else none

/-- Read an offset of hours and minutes behind its sign. -/
def readOffsetFields? (text : List Char) : Option (Nat × List Char) := do
  let (hours, rest) ← readCount? 2 text
  let rest ← readChar? ':' rest
  let (minutes, rest) ← readCount? 2 rest
  if hours < 24 ∧ minutes < 60 then return (hours * 60 + minutes, rest) else none

/-- The written form of an offset. -/
def offsetText (negative : Bool) (minutes : Nat) : String :=
  (if negative && minutes ≠ 0 then "-" else "+") ++ paddedText 2 (minutes / 60) ++ ":" ++
    paddedText 2 (minutes % 60)

/-- Read an offset from universal time, if there is one. -/
def readOffset : List Char → Option String × List Char
  | 'Z' :: rest | 'z' :: rest => (some "Z", rest)
  | '+' :: rest =>
      (readOffsetFields? rest).elim (none, '+' :: rest) fun (minutes, rest) =>
        (some (offsetText false minutes), rest)
  | '-' :: rest =>
      (readOffsetFields? rest).elim (none, '-' :: rest) fun (minutes, rest) =>
        (some (offsetText true minutes), rest)
  | rest => (none, rest)

/-- Skip what separates a time from the date before it. -/
def skipDayMark? : List Char → Option (List Char)
  | c :: rest => if c = 'T' ∨ c = 't' ∨ c = ' ' then some rest else none
  | [] => none

/-- Read a date or a time or both. -/
def readStamp? (text : List Char) : Option (Stamp × List Char) :=
  match readDate? text with
  | some (date, rest) =>
      match (skipDayMark? rest).bind readTime? with
      | some (time, rest) =>
          let (offset, rest) := readOffset rest
          some ({ date := some date, time := some time, offset }, rest)
      | none => some ({ date := some date, time := none }, rest)
  | none => (readTime? text).map fun (time, rest) =>
      ({ date := none, time := some time }, rest)

end RowQuery.Toml
