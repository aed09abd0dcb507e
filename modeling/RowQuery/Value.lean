import RowQuery.Calendar.Moment
import RowQuery.Fault
import RowQuery.Json
import RowQuery.Number.Decimal.Binary
import RowQuery.Text.Pieces

/-!
# Values

The values that rows, constants and results hold.  Numbers of different kinds
compare by value; other values compare only within their kind.  Cells are the raw
values that a database driver returns, before a column decodes them.  Drivers
disagree on shapes: some return text for everything, some split long integers in
two.
-/

namespace RowQuery

open RowQuery.Calendar RowQuery.Number

/-- The kind of a value. -/
inductive Kind where
  | null
  | bool
  | int
  | float
  | decimal
  | text
  | bytes
  | date
  | time
  | datetime
  | interval
  | json
  | list
  deriving DecidableEq

namespace Kind

/-- The kinds of numbers. -/
def isNumeric : Kind → Bool
  | int | float | decimal => true
  | _ => false

/-- The kinds of dates and times. -/
def isTemporal : Kind → Bool
  | date | time | datetime | interval => true
  | _ => false

def name : Kind → String
  | null => "null"
  | bool => "bool"
  | int => "int"
  | float => "float"
  | decimal => "decimal"
  | text => "str"
  | bytes => "bytes"
  | date => "date"
  | time => "time"
  | datetime => "datetime"
  | interval => "interval"
  | json => "json"
  | list => "list"

def all : List Kind :=
  [null, bool, int, float, decimal, text, bytes, date, time, datetime, interval, json, list]

/-- The kind that a declaration names. -/
def ofName? (name : String) : Option Kind :=
  if name = "string" ∨ name = "text" then some text
  else if name = "timestamp" then some datetime
  else if name = "timedelta" then some interval
  else all.find? fun kind => kind.name = name

end Kind

/-- A value. -/
inductive Value where
  | null
  | bool (value : Bool)
  | int (value : Int64)
  | float (value : Float)
  | decimal (value : Decimal)
  | text (value : String)
  | bytes (value : List UInt8)
  | date (value : Date)
  | time (value : Clock)
  | datetime (value : Moment)
  | interval (value : Interval)
  | json (value : Json)
  | list (items : List Value)

/-- A decoded row by column key. -/
abbrev Row := Keyed Value

/-- Late-bound arguments by name. -/
abbrev Arguments := Keyed Value

def compareBytes : List UInt8 → List UInt8 → Ordering
  | [], [] => .eq
  | [], _ :: _ => .lt
  | _ :: _, [] => .gt
  | a :: as, b :: bs => (Ord.compare a b).then (compareBytes as bs)

/-- Doubles in order; none of them compares with a NaN. -/
def compareFloats (a b : Float) : Option Ordering :=
  if a < b then some .lt
  else if b < a then some .gt
  else if a == b then some .eq
  else none

namespace Value

def kind : Value → Kind
  | null => .null
  | bool _ => .bool
  | int _ => .int
  | float _ => .float
  | decimal _ => .decimal
  | text _ => .text
  | bytes _ => .bytes
  | date _ => .date
  | time _ => .time
  | datetime _ => .datetime
  | interval _ => .interval
  | json _ => .json
  | list _ => .list

def isNull : Value → Bool
  | null => true
  | _ => false

/-- The value as a truth value. -/
def asBool? : Value → Option Bool
  | bool b => some b
  | _ => none

def asText? : Value → Option String
  | text s => some s
  | _ => none

/-- The value as an integer; truth counts as one. -/
def asInt? : Value → Option Int64
  | int i => some i
  | bool b => some (if b then 1 else 0)
  | _ => none

/-- The value as a double. -/
def asFloat? : Value → Option Float
  | int i => some (wordToFloat i)
  | float x => some x
  | decimal d => some d.toFloat
  | _ => none

/-- Whether a value counts as true: NULL, zero and empty values do not. -/
def truthy : Value → Bool
  | null => false
  | bool b => b
  | int i => i != 0
  | float x => !(x == 0.0)
  | decimal d => !d.isZero
  | text s => s != ""
  | bytes b => !b.isEmpty
  | interval i => i.nanos != 0
  | list items => !items.isEmpty
  | json j => !j.isNull
  | date _ | time _ | datetime _ => true

mutual

/-- The order of two values, if they compare. -/
def compare? : Value → Value → Option Ordering
  | bool a, bool b => some (Ord.compare a b)
  | int a, int b => some (Ord.compare a.toInt b.toInt)
  | decimal a, decimal b => some (a.compare b)
  | decimal a, int b => some (a.compare (.ofInt b))
  | int a, decimal b => some ((Decimal.ofInt a).compare b)
  | decimal a, float b => (Decimal.ofFloat? b).map fun b => a.compare b
  | float a, decimal b => (Decimal.ofFloat? a).map fun a => a.compare b
  | int a, float b => compareFloats (wordToFloat a) b
  | float a, int b => compareFloats a (wordToFloat b)
  | float a, float b => compareFloats a b
  | text a, text b => some (Ord.compare a b)
  | bytes a, bytes b => some (compareBytes a b)
  | date a, date b => some (a.compare b)
  | time a, time b => some (a.compare b)
  | datetime a, datetime b => some (a.compare b)
  | interval a, interval b => some (a.compare b)
  | json a, json b => if a.same b then some .eq else none
  | list a, list b => compareLists? a b
  | _, _ => none

/-- The order of two lists: that of the first items that differ, or of the
lengths. -/
def compareLists? : List Value → List Value → Option Ordering
  | [], [] => some .eq
  | [], _ :: _ => some .lt
  | _ :: _, [] => some .gt
  | a :: as, b :: bs =>
      match compare? a b with
      | some .eq => compareLists? as bs
      | other => other

end

/-- Equality by value; NULL equals only NULL. -/
def looseEq : Value → Value → Bool
  | null, null => true
  | null, _ => false
  | _, null => false
  | a, b => compare? a b == some .eq

/-- The length of an interval in microseconds as it is shown. -/
def microsText (i : Interval) : String :=
  intText ((i.micros?.getD Int64.maxValue).toInt)

/-- Texts between square brackets. -/
def inBrackets (items : List String) : String :=
  "[" ++ Text.join ", " items ++ "]"

mutual

/-- The unambiguous text of a value, as it stands in printed expressions and in
cache keys. -/
def repr : Value → String
  | null => "None"
  | bool true => "True"
  | bool false => "False"
  | int i => intText i.toInt
  | float x => Binary64.exactText x
  | decimal d => "Decimal('" ++ d.toText ++ "')"
  | text s => Text.quoted s
  | bytes b => "b" ++ inBrackets (b.map fun byte => natText byte.toNat)
  | date d => "date(" ++ d.toText ++ ")"
  | time t => "time(" ++ t.toText ++ ")"
  | datetime m => "datetime(" ++ m.toText " " ++ ")"
  | interval i => "interval(" ++ microsText i ++ "us)"
  | json j => "json(" ++ j.toText ++ ")"
  | list items => inBrackets (reprs items)

/-- The texts of several values. -/
def reprs : List Value → List String
  | [] => []
  | item :: items => repr item :: reprs items

end

end Value

/-! ## Cells -/

/-- A raw cell of a result. -/
inductive Cell where
  | null
  | text (value : String)
  | int (value : Int64)
  | float (value : Float)
  | bool (value : Bool)
  | bytes (value : List UInt8)
  /-- An integer of 64 bits as its signed high and unsigned low half. -/
  | halves (high : Int32) (low : UInt32)

namespace Cell

/-- The integer that two halves make. -/
def joinHalves (high : Int32) (low : UInt32) : Int64 :=
  Int64.ofInt (high.toInt * 0x100000000 + low.toNat)

/-- A truth value in small letters. -/
def boolText (b : Bool) : String :=
  if b then "true" else "false"

/-- The cell as reports show it. -/
def shown : Cell → String
  | null => "Null"
  | text s => "Text(" ++ Text.quoted s ++ ")"
  | int i => "Int(" ++ intText i.toInt ++ ")"
  | float x => "Float(" ++ Binary64.exactText x ++ ")"
  | bool b => "Bool(" ++ boolText b ++ ")"
  | bytes b => "Bytes(" ++ Value.inBrackets (b.map fun byte => natText byte.toNat) ++ ")"
  | halves high low =>
      "IntPair(" ++ intText high.toInt ++ ", " ++ natText low.toNat ++ ")"

end Cell

end RowQuery
