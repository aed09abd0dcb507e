import RowQuery.Calendar.Reading
import RowQuery.Value
import RowQuery.Dialect
import RowQuery.Calendar.Seconds
import RowQuery.Json.Reading

/-!
# Codecs

How values of a kind are written as SQL literals and read from raw cells.  The
codec depends on the kind of the values and on the column type: intervals, for
instance, are decimal seconds where there is no interval type.
-/

namespace RowQuery

open RowQuery.Calendar RowQuery.Number

/-- The ways to store values. -/
inductive Codec where
  /-- Nothing but NULL. -/
  | onlyNull
  /-- Nothing but NULL, for lists. -/
  | onlyNullList
  | bool
  | int
  | float
  | decimal
  | text
  | bytes
  | json
  | date
  | time
  | datetime
  | interval
  /-- Intervals as decimal seconds. -/
  | intervalSeconds
  deriving DecidableEq

namespace Codec

/-- The codec for values of a kind in columns of a type. -/
def ofKind (kind : Kind) (type : ColumnType) : Codec :=
  match kind with
  | .null => onlyNull
  | .list => onlyNullList
  | .bool => bool
  | .int => int
  | .float => float
  | .decimal => decimal
  | .text => text
  | .bytes => bytes
  | .json => json
  | .date => date
  | .time => time
  | .datetime => datetime
  | .interval => if type.family = .interval then interval else intervalSeconds

/-- The kind of the values of a codec. -/
def kind : Codec → Kind
  | onlyNull => .null
  | onlyNullList => .list
  | bool => .bool
  | int => .int
  | float => .float
  | decimal => .decimal
  | text => .text
  | bytes => .bytes
  | json => .json
  | date => .date
  | time => .time
  | datetime => .datetime
  | interval | intervalSeconds => .interval

/-- The fault for a value that has no form in a column type. -/
def encodeFault (value : Value) (type : ColumnType) : Fault :=
  .value ("cannot encode " ++ value.repr ++ " as " ++ type.declared)

/-- The fault for a cell that is no value of the kind. -/
def decodeFault (cell : Cell) (type : ColumnType) (kind : Kind) : Fault :=
  .value ("cannot decode " ++ cell.shown ++ " from " ++ type.declared ++ " as " ++ kind.name)

/-- An optional result, or a fault. -/
def orFault {α : Type} (fault : Fault) : Option α → Outcome α
  | some a => .ok a
  | none => .error fault

/-- The literal of an integer that has to lie in the range of the type. -/
def encodeInt (i : Int64) (type : ColumnType) : Outcome String :=
  match type.range with
  | some range =>
      if range.contains i.toInt then .ok (intText i.toInt)
      else .error (.value (intText i.toInt ++ " is out of range for " ++ type.declared))
  | none => .ok (intText i.toInt)

/-- The digits before the point have room in the type. -/
def fitsDigits (d : Decimal) (type : ColumnType) : Bool :=
  match type.precision with
  | some p => p.frozen || digitCount d.trunc.coefficient ≤ p.digits - p.places
  | none => true

/-- The literal of a decimal whose digits before the point have to fit. -/
def encodeDecimal (d : Decimal) (type : ColumnType) : Outcome String :=
  if fitsDigits d type then .ok d.toText
  else .error (.value (d.toText ++ " does not fit " ++ type.declared))

/-- A truth value in a column, which may be one of integers. -/
def encodeBool (dialect : Dialect) (b : Bool) (type : ColumnType) : String :=
  if type.family = .integer then (if b then "1" else "0") else dialect.truthLiteral b

/-- The SQL literal of a value. -/
def encode (codec : Codec) (dialect : Dialect) (type : ColumnType) (value : Value) :
    Outcome String :=
  match codec, value with
  | _, .null => .ok "NULL"
  | bool, .bool b => .ok (encodeBool dialect b type)
  | bool, .int i => .ok (encodeBool dialect (i != 0) type)
  | int, .int i => encodeInt i type
  | int, .bool b => encodeInt (if b then 1 else 0) type
  | int, .decimal d =>
      if d.isWhole then do
        let i ← orFault (encodeFault value type) d.toInt64?
        encodeInt i type
      else .error (encodeFault value type)
  | float, .float x =>
      if x.isNaN || x.isInf then
        .error (.value (value.repr ++ " has no portable SQL literal"))
      else .ok (Binary64.exactText x)
  | float, .int i => .ok (intText i.toInt)
  | decimal, .decimal d => encodeDecimal d type
  | decimal, .int i => encodeDecimal (.ofInt i) type
  | decimal, .float x => do
      let d ← orFault (encodeFault value type) (Decimal.ofFloat? x)
      encodeDecimal d type
  | text, .text s => .ok (dialect.quoteText s)
  | bytes, .bytes b => .ok (dialect.bytesLiteral b)
  | json, .json j =>
      .ok (if type.family = .json then dialect.jsonLiteral j.toText
        else dialect.quoteText j.toText)
  | date, .date d => .ok (dialect.dateLiteral d)
  | time, .time t => .ok (dialect.timeLiteral t)
  | datetime, .datetime m => .ok (dialect.datetimeLiteral m)
  | interval, .interval i =>
      orFault (.unsupported (dialect.name ++ " has no interval literal"))
        (dialect.intervalLiteral i)
  | intervalSeconds, .interval i => .ok i.seconds.toText
  | _, _ => .error (encodeFault value type)

/-- A double without fraction. -/
def isWholeFloat (x : Float) : Bool :=
  !x.isInf && x.floor == x

/-- The string of bytes, if they are UTF-8. -/
def utf8? (bytes : List UInt8) : Option String :=
  String.fromUTF8? ⟨bytes.toArray⟩

/-- The bytes of a string. -/
def utf8 (text : String) : List UInt8 :=
  text.toUTF8.toList

def trueWords : List String := ["t", "true", "1", "y", "yes", "on"]

def falseWords : List String := ["f", "false", "0", "n", "no", "off"]

/-- Read a truth value. -/
def readBool? (text : String) : Option Bool :=
  let word := Text.asciiLower (Text.trim text)
  if trueWords.contains word then some true
  else if falseWords.contains word then some false
  else none

/-- Read an integer, which may have a fraction of zeros. -/
def readInt? (text : String) : Option Int64 :=
  let text := Text.trimChars text.toList
  match readWord? text with
  | some i => some i
  | none => ((Decimal.read? text).filter Decimal.isWhole).bind Decimal.toInt64?

/-- Read bytes: hexadecimal behind a marker, otherwise the text itself. -/
def readBytes? (text : String) : Option (List UInt8) :=
  match Text.dropFront? ['\\', 'x'] text.toList with
  | some digits => Sql.hexDecode? digits
  | none => some (utf8 text)

/-- The value of a cell that is not NULL. -/
def decode? (codec : Codec) : Cell → Option Value
  | .null => some .null
  | .bool b =>
      match codec with
      | bool => some (.bool b)
      | int => some (.int (if b then 1 else 0))
      | _ => none
  | .int i =>
      match codec with
      | bool => some (.bool (i != 0))
      | int => some (.int i)
      | float => some (.float (wordToFloat i))
      | decimal => some (.decimal (.ofInt i))
      | text => some (.text (intText i.toInt))
      | datetime => (Moment.ofUnixSeconds? i.toInt).map .datetime
      | interval => (Interval.ofSeconds? i.toInt).map .interval
      | intervalSeconds => (Interval.ofSecondsDecimal? (.ofInt i)).map .interval
      | _ => none
  | .float x =>
      match codec with
      | int =>
          if isWholeFloat x then
            ((Decimal.ofFloat? x).bind Decimal.toInt64?).map .int
          else none
      | float => some (.float x)
      | decimal => (Decimal.ofFloat? x).map .decimal
      | text => some (.text (Binary64.plainText x))
      | intervalSeconds =>
          ((Decimal.ofFloat? x).bind Interval.ofSecondsDecimal?).map .interval
      | _ => none
  | .halves high low =>
      match codec with
      | int => some (.int (Cell.joinHalves high low))
      | decimal => some (.decimal (.ofInt (Cell.joinHalves high low)))
      | _ => none
  | .bytes b =>
      match codec with
      | text => (utf8? b).map .text
      | bytes => some (.bytes b)
      | json => ((utf8? b).bind Json.read?).map .json
      | _ => none
  | .text s =>
      match codec with
      | onlyNull | onlyNullList => none
      | bool => (readBool? s).map .bool
      | int => (readInt? s).map .int
      | float => (Binary64.read? (Text.trimChars s.toList)).map .float
      | decimal => (Decimal.read? (Text.trimChars s.toList)).map .decimal
      | text => some (.text s)
      | bytes => (readBytes? s).map .bytes
      | json => (Json.read? s).map .json
      | date => (readDate? s).map .date
      | time => (readClock? s).map .time
      | datetime => (readMoment? s).map .datetime
      | interval => (readInterval? s).map .interval
      | intervalSeconds =>
          ((Decimal.read? (Text.trimChars s.toList)).bind
            Interval.ofSecondsDecimal?).map .interval

/-- The value of a raw cell. -/
def decode (codec : Codec) (type : ColumnType) (cell : Cell) : Outcome Value :=
  orFault (decodeFault cell type codec.kind) (codec.decode? cell)

end Codec

end RowQuery
