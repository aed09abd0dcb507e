import RowQuery.Query.Relation

/-!
# Queries

What a SELECT asks for, and the columns of its result.
-/

namespace RowQuery

/-- The columns that a query selects. -/
inductive Projection where
  /-- Every column of every table. -/
  | all
  /-- Columns by their keys, one list for each table. -/
  | keys (lists : List (List String))
  /-- An expression or a tuple of expressions over the rows. -/
  | computed (e : Lambda)

/-- The order of the rows. -/
inductive Order where
  /-- Columns by their keys, ascending, of a single table. -/
  | keys (keys : List String)
  /-- An expression or a tuple of expressions, each of which may be marked as
  descending. -/
  | computed (e : Lambda)

/-- A query. -/
structure Query where
  relation : Relation
  projection : Projection := .all
  restriction : Option Lambda := none
  order : Option Order := none
  limit : Option Nat := none
  offset : Option Nat := none
  distinct : Bool := false
  /-- Refuse a restriction without exact SQL form. -/
  strict : Bool := false
  arguments : Arguments := []

/-- A column of a result. -/
structure OutputColumn where
  name : String
  /-- The key of the column, if the output is a plain column. -/
  key : Option String
  /-- The position of its table. -/
  source : Option Nat
  kind : Kind
  type : ColumnType

namespace OutputColumn

/-- A column of the table at a position, under a name. -/
def ofColumn (name : String) (source : Nat) (c : Column) : OutputColumn :=
  { name, key := some c.key, source := some source, kind := c.kind, type := c.type }

/-- The value of a raw cell. -/
def decode (c : OutputColumn) (cell : Cell) : Outcome Value :=
  (Codec.ofKind c.kind c.type).decode c.type cell

end OutputColumn

/-- A statement that returns rows. -/
structure CompiledQuery where
  sql : String
  /-- The statement returns no row too many. -/
  exact : Bool
  columns : List OutputColumn

namespace CompiledQuery

/-- The values of a result row by the names of the columns. -/
def decodeRow (q : CompiledQuery) (cells : List Cell) : Outcome Row :=
  if cells.length ≠ q.columns.length then
    .error (.value ("row has " ++ Number.natText cells.length ++
      " cells but the statement selects " ++ Number.natText q.columns.length ++ " columns"))
  else do
    let pairs ← (q.columns.zip cells).mapM fun (column, cell) => do
      let value ← column.decode cell
      .ok (column.name, value)
    .ok (Keyed.ofList pairs)

/-- The value of a plain column of the table at a position, with its key. -/
def sourceCell? (row : Row) (source : Nat) (c : OutputColumn) : Option (String × Value) := do
  let key ← c.key
  let value ← row.get? c.name
  if c.source = some source then some (key, value) else none

/-- The row of the table at a position, by column keys. -/
def sourceRow (q : CompiledQuery) (row : Row) (source : Nat) : Row :=
  Keyed.ofList (q.columns.filterMap (sourceCell? row source))

/-- A result row taken apart into one row for each table. -/
def splitRow (q : CompiledQuery) (row : Row) (tables : Nat) : List Row :=
  (List.range tables).map (q.sourceRow row)

end CompiledQuery

end RowQuery
