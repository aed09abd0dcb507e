import RowQuery.ColumnType
import RowQuery.Text.Pieces
import RowQuery.Text.Quoted

/-!
# Type catalogs

The column types that a database offers, and the choice of a type for values of
a kind.  Within a family the types stand in the order of their capacity, and the
first that is large enough is chosen.
-/

namespace RowQuery

open RowQuery.Number

/-- What a declaration asks of a column type. -/
structure TypeRequest where
  /-- The size; for texts and bytes zero asks for the largest type. -/
  bytes : Option Nat := none
  digits : Option Nat := none
  places : Option Nat := none
  isSigned : Option Bool := none
  /-- Use this type as it is. -/
  explicit : Option ColumnType := none

/-- The types of one database in the order of registration. -/
structure TypeCatalog where
  name : String
  registered : List ColumnType

namespace TypeCatalog

def family (c : TypeCatalog) (family : Family) : List ColumnType :=
  c.registered.filter fun t => t.family = family

/-- All types, family by family. -/
def types (c : TypeCatalog) : List ColumnType :=
  Family.all.flatMap c.family

/-- The type of a name or synonym. -/
def lookup (c : TypeCatalog) (name : String) : Option ColumnType :=
  c.types.find? fun t => t.answersTo name

/-- The size of an integer when none is asked for. -/
def defaultIntBytes : Nat := 4

/-- The binary digits of a double. -/
def defaultFloatDigits : Nat := 53

/-- The size of a text when none is asked for. -/
def defaultTextBytes : Nat := 255

/-- The digits of a decimal when none are asked for. -/
def defaultDecimalDigits : Nat := 18

/-- The places of a decimal when none are asked for. -/
def defaultDecimalPlaces : Nat := 6

/-- The double next to 0.30103, the decimal digits that a binary digit is worth, in units of
`2 ^ (-54)`. -/
def digitsPerBit : Nat := 5422874383309362

/-- A natural number rounded to the 53 binary digits of a double, a half to the even
neighbour. -/
def nearestDouble (n : Nat) : Nat :=
  let unit := Nat.pow 2 (Nat.log2 n - 52)
  Decimal.roundDiv n unit * unit

/-- The number of decimal digits that so many binary digits need: the product of doubles,
rounded up. -/
def decimalDigits (bits : Nat) : Nat :=
  let scale := Nat.pow 2 54
  (nearestDouble (bits * digitsPerBit) + (scale - 1)) / scale

def firstOf (c : TypeCatalog) (family : Family) (kind : Kind) : Outcome ColumnType :=
  match c.family family with
  | t :: _ => .ok t
  | [] => .error (.unsupported (c.name ++ " has no type for " ++ kind.name ++ " values"))

/-- The type for decimals with these digits and places. -/
def numeric (c : TypeCatalog) (digits places : Nat) : Outcome ColumnType :=
  match (c.family .numeric).find? fun t => digits ≤ t.maxDigits with
  | some t => .ok (t.setPrecision digits places)
  | none =>
      .error (.capacity ("precision " ++ natText digits ++
        " exceeds every numeric type in " ++ c.name))

/-- The type for truth values: a boolean, or else the smallest integer. -/
def boolean (c : TypeCatalog) : Outcome ColumnType :=
  match c.family .boolean, c.family .integer with
  | t :: _, _ => .ok t
  | [], t :: _ => .ok t
  | [], [] => .error (.unsupported (c.name ++ " has no boolean or integer type"))

/-- The fault for an integer that no type could hold. -/
def tooWide (bytes : Nat) : Fault :=
  .capacity ("Some(" ++ natText bytes ++ ") bytes is too wide for an integer")

/-- An integer type holds all integers of so many bytes. -/
def holdsInteger (bytes : Nat) (isSigned : Bool) (t : ColumnType) : Bool :=
  let wanted := if isSigned then IntRange.signed (min bytes 8) else IntRange.unsigned (min bytes 8)
  match t.range with
  | some range => bytes ≤ 8 && range.covers wanted
  | none => bytes ≤ t.maxBytes

/-- The type for integers.  If no integer type is wide enough a decimal with
enough digits serves. -/
def integer (c : TypeCatalog) (request : TypeRequest) : Outcome ColumnType :=
  let bytes := max (request.bytes.getD defaultIntBytes) 1
  if halfMax < bytes then .error (tooWide bytes)
  else
    match (c.family .integer).find? (holdsInteger bytes (request.isSigned.getD true)) with
    | some t => .ok t
    | none =>
        if halfMax < bytes * 8 then .error (tooWide bytes)
        else c.numeric (decimalDigits (bytes * 8) + 1) 0

/-- The type for doubles.  If no type is precise enough a decimal with twice the
digits serves, for small and large numbers alike. -/
def floating (c : TypeCatalog) (request : TypeRequest) : Outcome ColumnType :=
  let wanted := request.digits.getD defaultFloatDigits
  match (c.family .float).find? fun t => wanted ≤ t.maxDigits with
  | some t => .ok t
  | none => c.numeric (decimalDigits wanted * 2) (decimalDigits wanted)

/-- The type of a family that holds so many bytes; zero asks for the largest. -/
def sized (c : TypeCatalog) (family : Family) (bytes : Nat) : Outcome ColumnType :=
  let chosen :=
    if bytes = 0 then (c.family family).getLast?
    else (c.family family).find? fun t => bytes ≤ t.maxBytes
  match chosen with
  | some t => .ok (if bytes = 0 then t else t.setBytes bytes)
  | none =>
      .error (.capacity (natText bytes ++ " bytes exceeds every " ++ family.name ++
        " type in " ++ c.name))

/-- The type for intervals: decimal seconds if there is no interval type. -/
def interval (c : TypeCatalog) : Outcome ColumnType :=
  match c.family .interval with
  | t :: _ => .ok t
  | [] => c.numeric 20 6

/-- The type for documents: the largest text type if there is none of its own. -/
def document (c : TypeCatalog) : Outcome ColumnType :=
  match c.family .json with
  | t :: _ => .ok t
  | [] => c.sized .varchar 0

/-- The column type for values of a kind. -/
def resolve (c : TypeCatalog) (kind : Kind) (request : TypeRequest) : Outcome ColumnType :=
  match request.explicit, kind with
  | some t, _ => .ok t
  | none, .bool => c.boolean
  | none, .int => c.integer request
  | none, .float => c.floating request
  | none, .decimal =>
      c.numeric (request.digits.getD defaultDecimalDigits)
        (request.places.getD defaultDecimalPlaces)
  | none, .text => c.sized .varchar (request.bytes.getD defaultTextBytes)
  | none, .bytes => c.sized .binary (request.bytes.getD defaultTextBytes)
  | none, .date => c.firstOf .date kind
  | none, .time => c.firstOf .time kind
  | none, .datetime => c.firstOf .datetime kind
  | none, .interval => c.interval
  | none, .json => c.document
  | none, .null | none, .list =>
      .error (.unsupported ("no database type stores " ++ kind.name ++ " values"))

/-- The text before the first opening bracket and what stands inside it, up to
the last closing one. -/
def splitParameters (text : List Char) : List Char × List Char :=
  match Text.cutAt? (· == '(') text with
  | none => (text, [])
  | some (base, rest) =>
      match Text.cutAt? (· == ')') rest.reverse with
      | none => (Text.trimChars base, if base.contains ')' then [] else rest)
      | some (_, inside) => (Text.trimChars base, inside.reverse)

/-- The numbers between the commas of a parameter list. -/
def parameterNumbers (text : List Char) : List Nat :=
  (Text.splitAll ',' text).filterMap fun part =>
    readBounded? wordMax (Text.trimChars part)

/-- Cut a number down to 32 bits. -/
def halfWord (n : Nat) : Nat := n % (halfMax + 1)

/-- The type that a database reports under a name, possibly with parameters in
brackets.  Figures that are reported apart win over the parameters. -/
def ofTypeName (c : TypeCatalog) (typeName : String) (bytes digits places : Option Nat) :
    Outcome ColumnType :=
  let trimmed := Text.trimChars typeName.toList
  let (base, parameters) := splitParameters trimmed
  match c.lookup (String.ofList trimmed) <|> c.lookup (String.ofList base) with
  | none => .error (.unmapped ("unknown column type " ++ Text.quoted typeName))
  | some t =>
      let numbers := parameterNumbers parameters
      let t :=
        match t.size, bytes <|> numbers[0]? with
        | some _, some n => t.setBytes n
        | _, _ => t
      match t.precision, digits <|> numbers[0]?.map halfWord with
      | some _, some p =>
          .ok (t.setPrecision p ((places <|> numbers[1]?.map halfWord).getD 0))
      | _, _ => .ok t

end TypeCatalog

end RowQuery
