import RowQuery.Codec

/-!
# Fragments

A piece of SQL with the kind of its values, the column type that encodes
literals next to it, and its value if that is known.  Operators on fragments
exist only for some kinds of operands.
-/

namespace RowQuery.Sql

/-- A compiled piece of SQL. -/
structure Fragment where
  sql : String
  kind : Kind
  type : ColumnType
  /-- The name of the output column, if the fragment is selected. -/
  name : Option String := none
  /-- The value, if it is known beforehand. -/
  constant : Option Value := none
  /-- The fragment is computed over all rows. -/
  aggregate : Bool := false

namespace Fragment

def literal (sql : String) (value : Value) (type : ColumnType) : Fragment :=
  { sql, kind := value.kind, type, constant := some value }

/-- The fragment under a name. -/
def named (f : Fragment) (name : String) : Fragment :=
  { f with name := some name }

/-- The fragment, computed over all rows or not. -/
def withAggregate (f : Fragment) (aggregate : Bool) : Fragment :=
  { f with aggregate := aggregate }

/-- The value is known. -/
def isConstant (f : Fragment) : Bool :=
  f.constant.isSome

/-- The value is known to be NULL. -/
def isNull (f : Fragment) : Bool :=
  match f.constant with
  | some value => value.isNull
  | none => false

/-- The codec of the values. -/
def codec (f : Fragment) : Codec :=
  Codec.ofKind f.kind f.type

/-- The literal of a value next to the fragment. -/
def encode (f : Fragment) (dialect : Dialect) (value : Value) : Outcome String :=
  f.codec.encode dialect f.type value

/-- The kind and the text. -/
def operand (f : Fragment) : Kind × String :=
  (f.kind, f.sql)

/-- The text of `r` next to `l`.  A constant of the same kind is written in the
column type of `l`, so that both sides are stored alike. -/
def operandText (dialect : Dialect) (l r : Fragment) : String :=
  match r.constant with
  | some value =>
      if !value.isNull && value.kind = l.kind then
        match l.encode dialect value with
        | .ok text => text
        | .error _ => r.sql
      else r.sql
  | none => r.sql

/-- A comparison, if the codec of `l` has one with values of the kind of `r`.
Documents are compared only outside of the database. -/
def compare? (dialect : Dialect) (l : Fragment) (op : Comparison) (r : Fragment) :
    Option String :=
  let text := operandText dialect l r
  match l.codec with
  | .onlyNull | .onlyNullList | .json => none
  | .int | .float | .decimal =>
      if r.kind.isNumeric then some (dialect.compare l.sql op text) else none
  | .text =>
      if r.kind = .text then some (dialect.compareText l.sql op text) else none
  | codec =>
      if r.kind = codec.kind then some (dialect.compare l.sql op text) else none

/-- Arithmetic between numbers, or of a number and an interval to be scaled.
Remainders of numbers other than integers differ between databases. -/
def numericArithmetic? (dialect : Dialect) (l : Fragment) (op : Arithmetic)
    (r : Fragment) : Option String :=
  if r.kind = .interval ∧ op = .mul then
    if r.type.family = .interval then dialect.dateArithmetic l.operand op r.operand
    else some (dialect.arithmetic l.sql op r.sql)
  else if !r.kind.isNumeric then none
  else
    let text := operandText dialect l r
    let integers := l.kind = .int ∧ r.kind = .int
    match op with
    | .div =>
        if integers then some (dialect.trueDivide l.sql text)
        else some (dialect.arithmetic l.sql op text)
    | .mod => if integers then some (dialect.floorModulo l.sql text) else none
    | _ => some (dialect.arithmetic l.sql op text)

/-- Arithmetic with intervals that are decimal seconds. -/
def secondsArithmetic? (dialect : Dialect) (l : Fragment) (op : Arithmetic)
    (r : Fragment) : Option String :=
  match op, r.kind with
  | .add, .interval | .sub, .interval | .div, .interval =>
      some (dialect.arithmetic l.sql op (operandText dialect l r))
  | .mul, .int | .mul, .float | .div, .int | .div, .float =>
      some (dialect.arithmetic l.sql op r.sql)
  | .add, .date | .add, .datetime => dialect.dateArithmetic l.operand op r.operand
  | _, _ => none

/-- Arithmetic, if the codec of `l` has it with values of the kind of `r`. -/
def arithmetic? (dialect : Dialect) (l : Fragment) (op : Arithmetic) (r : Fragment) :
    Option String :=
  match l.codec with
  | .int | .float | .decimal => numericArithmetic? dialect l op r
  | .text =>
      if op = .add ∧ r.kind = .text then
        some (dialect.concat l.sql (operandText dialect l r))
      else none
  | .bytes =>
      if op = .add ∧ r.kind = .bytes then
        some (dialect.concat l.sql (operandText dialect l r))
      else none
  | .date | .datetime | .interval => dialect.dateArithmetic l.operand op r.operand
  | .intervalSeconds => secondsArithmetic? dialect l op r
  | _ => none

end Fragment

end RowQuery.Sql
