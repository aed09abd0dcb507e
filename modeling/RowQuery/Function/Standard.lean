import RowQuery.Function.Affix
import RowQuery.Value.Part

/-!
# Standard functions

Tests and conversions of texts, aggregates, fields of dates and times, length
and absolute value.  The clock is read by the database only.
-/

namespace RowQuery.Function

open RowQuery.Number RowQuery.Sql

/-- The fault of a call on values that the function does not take. -/
def operandFault (name : String) (operands : List Value) : Fault :=
  .value (name ++ "() does not accept (" ++
    Text.join ", " (operands.map fun v => v.kind.name) ++ ")")

/-- A test for a piece of a text. -/
def ofAffix (affix : Affix) (ignoreCase : Bool) : Function where
  render := some fun dialect operands =>
    match operands with
    | [text, piece] => affix.render? ignoreCase dialect text piece
    | _ => none
  compute := some fun operands =>
    match operands with
    | [.text s, .text piece] =>
        .ok (.bool (if ignoreCase then affix.holds (Text.lower s) (Text.lower piece)
          else affix.holds s piece))
    | _ => .error (operandFault "like" operands)

/-- Conversion to lower or upper case, where the database knows all letters. -/
def ofCase (name : String) (sql : Dialect → String → String) (convert : String → String) :
    Function where
  render := some fun dialect operands =>
    match operands with
    | [f] =>
        if f.kind ≠ .text || !dialect.foldsUnicode then none
        else some (typedLike (sql dialect f.sql) f)
    | _ => none
  compute := some fun operands =>
    match operands with
    | [.text s] => .ok (.text (convert s))
    | _ => .error (operandFault name operands)

/-- Equality of texts up to case. -/
def equalIgnoringCase : Function where
  render := some fun dialect operands =>
    match operands with
    | [a, b] =>
        if a.kind ≠ .text ∨ b.kind ≠ .text then none
        else typed? dialect (dialect.compare (dialect.lower a.sql) .eq (dialect.lower b.sql)) .bool
    | _ => none
  compute := some fun operands =>
    match operands with
    | [.text a, .text b] => .ok (.bool (Text.lower a == Text.lower b))
    | _ => .error (operandFault "ieq" operands)

/-- A reading of the clock, made by the database. -/
def ofClock (sql : Dialect → String) (kind : Kind) : Function where
  render := some fun dialect operands =>
    if operands.isEmpty then typed? dialect (sql dialect) kind else none
  isVolatile := true

/-- The number of rows, or of values that are not NULL. -/
def count : Function where
  render := some fun dialect operands =>
    match operands with
    | [] => typed? dialect "COUNT(*)" .int
    | [f] => typed? dialect (callText "COUNT" [f.sql]) .int
    | _ => none
  aggregate := true

def ofAggregate (name : String) (render : Dialect → String → Fragment → Option Rendering) :
    Function where
  render := some fun dialect operands =>
    match operands with
    | [f] => render dialect (callText name [f.sql]) f
    | _ => none
  aggregate := true

/-- The least or the greatest value. -/
def extremum (name : String) : Function :=
  ofAggregate name fun _ sql f =>
    match f.kind with
    | .json | .list | .null => none
    | _ => some (typedLike sql f)

/-- The sum of numbers. -/
def sum : Function :=
  ofAggregate "SUM" fun dialect sql f =>
    match f.kind with
    | .int => typed? dialect sql .int
    | .float | .decimal => some (typedLike sql f)
    | _ => none

/-- The mean of numbers. -/
def mean : Function :=
  ofAggregate "AVG" fun dialect sql f =>
    match f.kind with
    | .int | .float => typed? dialect sql .float
    | .decimal => some (typedLike sql f)
    | _ => none

/-- Values of this kind have this field. -/
def hasField (part : DatePart) (kind : Kind) : Bool :=
  let ofDate := part = .year ∨ part = .month ∨ part = .day
  match kind with
  | .datetime => true
  | .date => ofDate
  | .time => !ofDate
  | _ => false

/-- The field of a date or a time in SQL. -/
def extract? (part : DatePart) (dialect : Dialect) (f : Fragment) : Option Rendering :=
  if hasField part f.kind then typed? dialect (dialect.extract part f.sql) .int else none

/-- The function that takes a field of a date or a time. -/
def ofField (part : DatePart) : Function where
  render := some fun dialect operands =>
    match operands with
    | [f] => extract? part dialect f
    | _ => none
  compute := some fun operands =>
    let name := Text.asciiLower part.keyword
    match operands with
    | [v] => v.field name
    | _ => .error (operandFault name operands)

/-- The number of characters, bytes or items. -/
def length : Function where
  render := some fun dialect operands =>
    match operands with
    | [f] => if f.kind = .text then typed? dialect (dialect.length f.sql) .int else none
    | _ => none
  compute := some fun operands =>
    match operands with
    | [.text s] => .ok (.int (Int64.ofNat s.length))
    | [.bytes b] => .ok (.int (Int64.ofNat b.length))
    | [.list items] => .ok (.int (Int64.ofNat items.length))
    | _ => .error (operandFault "len" operands)

/-- The absolute value. -/
def absolute : Function where
  render := some fun _ operands =>
    match operands with
    | [f] => if f.kind.isNumeric then some (typedLike (callText "ABS" [f.sql]) f) else none
    | _ => none
  compute := some fun operands =>
    match operands with
    | [.int i] =>
        match word? i.toInt.natAbs with
        | some i => .ok (.int i)
        | none => .error (.value "integer overflow")
    | [.float x] => .ok (.float x.abs)
    | [.decimal d] => .ok (.decimal d.abs)
    | [.interval i] => .ok (.interval i.abs)
    | _ => .error (operandFault "abs" operands)

end RowQuery.Function

namespace RowQuery.FunctionLibrary

open RowQuery.Function

/-- The methods of texts. -/
def standardMethods : Keyed Function :=
  .ofList [
    ("startswith", ofAffix .front false),
    ("endswith", ofAffix .back false),
    ("lower", ofCase "lower" Dialect.lower Text.lower),
    ("upper", ofCase "upper" Dialect.upper Text.upper)]

/-- The functions that every expression can call. -/
def standardFunctions : Keyed Function :=
  .ofList [
    ("istartswith", ofAffix .front true),
    ("iendswith", ofAffix .back true),
    ("icontains", ofAffix .within true),
    ("ieq", equalIgnoringCase),
    ("now", ofClock Dialect.now .datetime),
    ("today", ofClock Dialect.today .date),
    ("count", count),
    ("min", extremum "MIN"),
    ("max", extremum "MAX"),
    ("sum", sum),
    ("avg", mean),
    ("year", ofField .year),
    ("month", ofField .month),
    ("day", ofField .day),
    ("hour", ofField .hour),
    ("minute", ofField .minute),
    ("second", ofField .second),
    ("len", length),
    ("abs", absolute)]

/-- The library of the standard functions. -/
def standard : FunctionLibrary :=
  { methods := standardMethods, builtins := standardFunctions }

end RowQuery.FunctionLibrary
