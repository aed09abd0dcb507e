import RowQuery.Json
import RowQuery.Number.Digits

/-!
# Reading JSON

A reader of documents.  Arrays and objects may be nested 127 deep, of two
members with one name the later counts, and the digits of a double that do not
fit 64 bits are not kept.
-/

namespace RowQuery.Json

open RowQuery.Number

/-- Blanks between the parts of a document. -/
def isSpace (c : Char) : Bool :=
  c == ' ' || c == '\n' || c == '\t' || c == '\r'

def skipSpace (text : List Char) : List Char :=
  text.dropWhile isSpace

/-- The value of a hexadecimal digit. -/
def hexValue? (c : Char) : Option Nat :=
  if isDigit c then some (digitOf c)
  else if 'a' ≤ c ∧ c ≤ 'f' then some (c.toNat - 87)
  else if 'A' ≤ c ∧ c ≤ 'F' then some (c.toNat - 55)
  else none

/-- Read four hexadecimal digits. -/
def readUnit? : List Char → Option (Nat × List Char)
  | a :: b :: c :: d :: rest => do
      let a ← hexValue? a
      let b ← hexValue? b
      let c ← hexValue? c
      let d ← hexValue? d
      return (a * 4096 + b * 256 + c * 16 + d, rest)
  | _ => none

/-- Read the numbers of an escaped character.  Two surrogates make one
character, and one alone makes none. -/
def readEscapedPoint? (text : List Char) : Option (Char × List Char) := do
  let (unit, rest) ← readUnit? text
  if 0xDC00 ≤ unit ∧ unit ≤ 0xDFFF then none
  else if 0xD800 ≤ unit ∧ unit ≤ 0xDBFF then
    match rest with
    | '\\' :: 'u' :: more =>
        let (low, rest) ← readUnit? more
        if 0xDC00 ≤ low ∧ low ≤ 0xDFFF then
          return (Char.ofNat (0x10000 + (unit - 0xD800) * 1024 + (low - 0xDC00)), rest)
        else none
    | _ => none
  else return (Char.ofNat unit, rest)

/-- Read the characters of a string behind its opening quote; `found` holds the
earlier ones in reverse. -/
def readChars? (found : List Char) : Nat → List Char → Option (String × List Char)
  | 0, _ => none
  | _ + 1, [] => none
  | fuel + 1, c :: rest =>
      if c = '"' then some (String.ofList found.reverse, rest)
      else if c.toNat < 32 then none
      else if c = '\\' then
        match rest with
        | 'u' :: more =>
            (readEscapedPoint? more).bind fun (c, rest) => readChars? (c :: found) fuel rest
        | '"' :: more => readChars? ('"' :: found) fuel more
        | '\\' :: more => readChars? ('\\' :: found) fuel more
        | '/' :: more => readChars? ('/' :: found) fuel more
        | 'b' :: more => readChars? (Char.ofNat 8 :: found) fuel more
        | 'f' :: more => readChars? (Char.ofNat 12 :: found) fuel more
        | 'n' :: more => readChars? ('\n' :: found) fuel more
        | 'r' :: more => readChars? ('\r' :: found) fuel more
        | 't' :: more => readChars? ('\t' :: found) fuel more
        | _ => none
      else readChars? (c :: found) fuel rest

/-- The first number that 64 bits do not hold. -/
def wordLimit : Nat := wordMax + 1

/-- Take digits onto a number as long as it fits 64 bits.  The result tells how
many were taken. -/
def takeDigits (value taken : Nat) : List Char → Nat × Nat × List Char
  | [] => (value, taken, [])
  | c :: rest =>
      if isDigit c then
        if value * 10 + digitOf c < wordLimit then
          takeDigits (value * 10 + digitOf c) (taken + 1) rest
        else (value, taken, c :: rest)
      else (value, taken, c :: rest)

/-- Scale digits by a power of ten in one rounding step; `none` if the result is
too large. -/
def scaled? (negative : Bool) (digits : Nat) (exponent : Int) : Option Float :=
  let rec go (value : Float) (exponent : Int) : Nat → Option Float
    | 0 => some value
    | fuel + 1 =>
        if exponent.natAbs ≤ 308 then
          let power := Float.ofScientific 1 false exponent.natAbs
          if 0 ≤ exponent then
            if (value * power).isInf then none else some (value * power)
          else some (value / power)
        else if value == 0.0 then some value
        else if 0 ≤ exponent then none
        else go (value / 1e308) (exponent + 308) fuel
  let exponent :=
    if exponent < -0x80000000 then -0x80000000
    else if 0x7FFFFFFF < exponent then 0x7FFFFFFF
    else exponent
  (go (Float.ofScientific digits false 0) exponent 8).map fun value =>
    if negative then -value else value

/-- Read the exponent of a double behind its letter. -/
def readExponent? (negative : Bool) (digits : Nat) (exponent : Int)
    (text : List Char) : Option (JsonNumber × List Char) :=
  let (down, text) :=
    match text with
    | '-' :: rest => (true, rest)
    | '+' :: rest => (false, rest)
    | _ => (false, text)
  let found := text.takeWhile isDigit
  let rest := text.drop found.length
  if found.isEmpty then none
  else
    let size := digitsValue found
    if 0x7FFFFFFF < size then
      if digits != 0 && !down then none
      else some (.double (if negative then -0.0 else 0.0), rest)
    else
      let size : Int := if down then exponent - size else exponent + size
      (scaled? negative digits size).map fun value => (.double value, rest)

/-- Read the end of a double behind its digits. -/
def readDoubleEnd? (negative : Bool) (digits : Nat) (exponent : Int)
    (text : List Char) : Option (JsonNumber × List Char) :=
  match text with
  | 'e' :: rest => readExponent? negative digits exponent rest
  | 'E' :: rest => readExponent? negative digits exponent rest
  | _ => (scaled? negative digits exponent).map fun value => (.double value, text)

/-- Read the places of a double behind its point. -/
def readPlaces? (negative : Bool) (digits : Nat) (exponent : Int)
    (text : List Char) : Option (JsonNumber × List Char) :=
  match text with
  | [] => none
  | c :: _ =>
      if isDigit c then
        let (digits, taken, rest) := takeDigits digits 0 text
        readDoubleEnd? negative digits (exponent - taken) (rest.dropWhile isDigit)
      else none

/-- Read a number without its sign. -/
def readUnsigned? (negative : Bool) (text : List Char) :
    Option (JsonNumber × List Char) :=
  match text with
  | [] => none
  | c :: more =>
      if !isDigit c then none
      else if c = '0' ∧ (more.head?.any isDigit) then none
      else
        let (digits, _, rest) := takeDigits 0 0 text
        let dropped := (rest.takeWhile isDigit).length
        let rest := rest.drop dropped
        match rest with
        | '.' :: after => readPlaces? negative digits dropped after
        | 'e' :: after => readExponent? negative digits dropped after
        | 'E' :: after => readExponent? negative digits dropped after
        | _ =>
            if dropped ≠ 0 then readDoubleEnd? negative digits dropped rest
            else if !negative then some (.whole digits, rest)
            else if digits = 0 ∨ 0x8000000000000000 < digits then
              some (.double (-(Float.ofScientific digits false 0)), rest)
            else some (.whole (-(digits : Int)), rest)

def readNumber? : List Char → Option (JsonNumber × List Char)
  | '-' :: rest => readUnsigned? true rest
  | text => readUnsigned? false text

def readWord? : List Char → List Char → Option (List Char)
  | [], text => some text
  | _ :: _, [] => none
  | w :: word, c :: text => if w = c then readWord? word text else none

mutual

/-- Read a document.  `depth` is how deep arrays and objects may still nest. -/
def readDocument? (depth : Nat) : Nat → List Char → Option (Json × List Char)
  | 0, _ => none
  | fuel + 1, text =>
      match skipSpace text with
      | [] => none
      | '"' :: rest =>
          (readChars? [] (rest.length + 1) rest).map fun (value, rest) => (.string value, rest)
      | '[' :: rest =>
          if depth ≤ 1 then none
          else
            match skipSpace rest with
            | ']' :: rest => some (.array [], rest)
            | rest =>
                (readItems? (depth - 1) [] fuel rest).map fun (items, rest) =>
                  (.array items, rest)
      | c :: rest =>
          if c = Char.ofNat 123 then
            if depth ≤ 1 then none
            else
              match skipSpace rest with
              | [] => none
              | d :: more =>
                  if d = Char.ofNat 125 then some (.object [], more)
                  else
                    (readMembers? (depth - 1) [] fuel (d :: more)).map
                      fun (members, rest) => (.object members, rest)
          else if c = 'n' then
            (readWord? "ull".toList rest).map fun rest => (.null, rest)
          else if c = 't' then
            (readWord? "rue".toList rest).map fun rest => (.bool true, rest)
          else if c = 'f' then
            (readWord? "alse".toList rest).map fun rest => (.bool false, rest)
          else
            (readNumber? (c :: rest)).map fun (value, rest) => (.number value, rest)

/-- Read the items of an array up to its end; `found` holds the earlier ones in
reverse. -/
def readItems? (depth : Nat) (found : List Json) :
    Nat → List Char → Option (List Json × List Char)
  | 0, _ => none
  | fuel + 1, text => do
      let (item, rest) ← readDocument? depth fuel text
      match skipSpace rest with
      | ',' :: rest => readItems? depth (item :: found) fuel rest
      | ']' :: rest => return ((item :: found).reverse, rest)
      | _ => none

/-- Read the members of an object up to its end. -/
def readMembers? (depth : Nat) (found : Keyed Json) :
    Nat → List Char → Option (Keyed Json × List Char)
  | 0, _ => none
  | fuel + 1, text =>
      match skipSpace text with
      | '"' :: rest => do
          let (name, rest) ← readChars? [] (rest.length + 1) rest
          match skipSpace rest with
          | ':' :: rest => do
              let (value, rest) ← readDocument? depth fuel rest
              let found := Keyed.put name value found
              match skipSpace rest with
              | [] => none
              | c :: rest =>
                  if c = ',' then readMembers? depth found fuel rest
                  else if c = Char.ofNat 125 then return (found, rest)
                  else none
          | _ => none
      | _ => none

end

/-- Read the text of one document. -/
def read? (text : String) : Option Json :=
  let text := text.toList
  match readDocument? 128 (2 * text.length + 2) text with
  | some (value, rest) => if (skipSpace rest).isEmpty then some value else none
  | none => none

end RowQuery.Json
