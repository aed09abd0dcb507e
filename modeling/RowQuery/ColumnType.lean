import RowQuery.Value

/-!
# Column types

What a database stores in a column: a name, a family, and limits on size,
precision and range where the type has them.  A limit is frozen if the type is
of fixed size; otherwise it can be set, and is written behind the name.
-/

namespace RowQuery

open RowQuery.Number

/-- The families of column types, in the order in which they are listed. -/
inductive Family where
  | boolean
  | integer
  | float
  | numeric
  | varchar
  | binary
  | date
  | time
  | datetime
  | interval
  | json
  deriving DecidableEq

namespace Family

/-- All families in order. -/
def all : List Family :=
  [boolean, integer, float, numeric, varchar, binary, date, time, datetime, interval, json]

def name : Family → String
  | boolean => "Boolean"
  | integer => "Integer"
  | float => "Float"
  | numeric => "Numeric"
  | varchar => "Varchar"
  | binary => "Binary"
  | date => "Date"
  | time => "Time"
  | datetime => "DateTime"
  | interval => "Interval"
  | json => "Json"

def ofName? (name : String) : Option Family :=
  all.find? fun family => family.name = name

/-- The kind of the values that a family stores. -/
def kind : Family → Kind
  | boolean => .bool
  | integer => .int
  | float => .float
  | numeric => .decimal
  | varchar => .text
  | binary => .bytes
  | date => .date
  | time => .time
  | datetime => .datetime
  | interval => .interval
  | json => .json

end Family

/-- A size in bytes and its ceiling. -/
structure SizeLimit where
  max : Nat
  bytes : Nat
  frozen : Bool
  deriving DecidableEq

/-- Digits and places, with their ceilings.  They are binary digits for floating
types and decimal ones for numeric types. -/
structure Precision where
  maxDigits : Nat
  maxPlaces : Nat
  digits : Nat
  places : Nat
  frozen : Bool
  deriving DecidableEq

/-- The integers between two bounds, which belong to it. -/
structure IntRange where
  min : Int
  max : Int
  deriving DecidableEq

namespace IntRange

/-- The integers of so many bytes in two's complement. -/
def signed (bytes : Nat) : IntRange :=
  let half := Nat.pow 2 (bytes * 8 - 1)
  ⟨-(half : Int), (half : Int) - 1⟩

/-- The natural numbers of so many bytes. -/
def unsigned (bytes : Nat) : IntRange :=
  ⟨0, (Nat.pow 2 (bytes * 8) : Int) - 1⟩

/-- An integer lies in the range. -/
def contains (r : IntRange) (i : Int) : Bool :=
  r.min ≤ i && i ≤ r.max

/-- All of another range lies in the range. -/
def covers (r other : IntRange) : Bool :=
  r.min ≤ other.min && other.max ≤ r.max

end IntRange

/-- A column type. -/
structure ColumnType where
  name : String
  family : Family
  synonyms : List String := []
  size : Option SizeLimit := none
  precision : Option Precision := none
  range : Option IntRange := none
  deriving DecidableEq

namespace ColumnType

/-- The type with other names. -/
def withSynonyms (t : ColumnType) (synonyms : List String) : ColumnType :=
  { t with synonyms := synonyms }

/-- The type with a fixed size. -/
def fixedBytes (t : ColumnType) (bytes : Nat) : ColumnType :=
  { t with size := some ⟨bytes, bytes, true⟩ }

/-- The type with a size that can be set up to a ceiling. -/
def adjustableBytes (t : ColumnType) (max default : Nat) : ColumnType :=
  { t with size := some ⟨max, min default max, false⟩ }

/-- The type with a fixed number of binary digits. -/
def fixedPrecision (t : ColumnType) (digits : Nat) : ColumnType :=
  { t with precision := some ⟨digits, 0, digits, 0, true⟩ }

/-- The type with decimal digits and places that can be set. -/
def adjustablePrecision (t : ColumnType) (maxDigits maxPlaces : Nat) : ColumnType :=
  { t with
    precision := some ⟨maxDigits, maxPlaces, min maxDigits 18, min maxPlaces 6, false⟩ }

/-- The type with bounds on its values. -/
def withRange (t : ColumnType) (range : IntRange) : ColumnType :=
  { t with range := some range }

/-- A text is the name of the type or one of its synonyms. -/
def answersTo (t : ColumnType) (name : String) : Bool :=
  Text.sameIgnoringCase t.name name || t.synonyms.any fun s => Text.sameIgnoringCase s name

/-- The size that a type without limit reports. -/
def unlimited : Nat := Number.wordMax

/-- The largest size that a value may have. -/
def maxBytes (t : ColumnType) : Nat :=
  match t.size with
  | some limit => limit.max
  | none => unlimited

/-- The largest number of digits that a value may have. -/
def maxDigits (t : ColumnType) : Nat :=
  match t.precision with
  | some p => p.maxDigits
  | none => 0

/-- Set the size of an adjustable type, at most to its ceiling. -/
def setBytes (t : ColumnType) (bytes : Nat) : ColumnType :=
  match t.size with
  | some limit =>
      if limit.frozen then t
      else { t with size := some { limit with bytes := min bytes limit.max } }
  | none => t

/-- Set digits and places of an adjustable type, at most to their ceilings.
There are never more places than digits. -/
def setPrecision (t : ColumnType) (digits places : Nat) : ColumnType :=
  match t.precision with
  | some p =>
      if p.frozen then t
      else
        let digits := min digits p.maxDigits
        { t with
          precision := some { p with digits, places := min (min places p.maxPlaces) digits } }
  | none => t

/-- The type as a declaration writes it: the size or the precision follows the
name if it can be set. -/
def declared (t : ColumnType) : String :=
  match t.size, t.precision with
  | some ⟨_, bytes, false⟩, _ => t.name ++ "(" ++ natText bytes ++ ")"
  | _, some ⟨_, _, digits, places, false⟩ =>
      t.name ++ "(" ++ natText digits ++ ", " ++ natText places ++ ")"
  | _, _ => t.name

end ColumnType

end RowQuery
