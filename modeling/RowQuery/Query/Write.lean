import RowQuery.Query.Select

/-!
# Statements that change rows

UPDATE, DELETE and INSERT.  Restrictions and computed values must have an exact
SQL form: a statement never touches a row too many.
-/

namespace RowQuery

/-- The new value of a column. -/
inductive Assignment where
  | value (v : Value)
  /-- Computed from the row that changes. -/
  | computed (e : Lambda)

namespace Workspace

variable (w : Workspace)

/-- A computed value fits a column of the same kind, or one of numbers if it is a
number. -/
def fitsColumn (f : Sql.Fragment) (c : Column) : Bool :=
  f.kind = c.kind || (f.kind.isNumeric && c.kind.isNumeric)

/-- The SQL of a new value. -/
def assignmentText (table : Table) (c : Column) (arguments : Arguments) :
    Assignment → Outcome String
  | .value v => c.encode w.dialect v
  | .computed e => do
      let fragment ← (w.context [.ofTable table] arguments).value e
      match fragment.constant with
      | some v => c.encode w.dialect v
      | none =>
          if fitsColumn fragment c then .ok fragment.sql
          else
            .error (.value (e.toText ++ " yields " ++ fragment.kind.name ++ " values, column " ++
              c.name ++ " holds " ++ c.kind.name))

/-- The SET clause of an assignment. -/
def setText (table : Table) (arguments : Arguments) (assignment : String × Assignment) :
    Outcome String := do
  let column ← table.lookup assignment.1
  let value ← w.assignmentText table column arguments assignment.2
  .ok (column.quotedName ++ " = " ++ value)

/-- The WHERE clause of a statement that must not touch a row too many. -/
def exactWhere (table : Table) (restriction : Option Lambda) (arguments : Arguments)
    (statement : String) : Memoized (List String) :=
  match restriction with
  | none => return []
  | some e => do
      let compiled ← w.restriction [.ofTable table] e arguments
      if compiled.exact then return w.whereClause compiled.sql
      else
        throw (.inexact (statement ++ " needs an exact restriction; " ++ e.toText ++
          " is not representable in SQL"))

def update (table : Table) (assignments : List (String × Assignment))
    (restriction : Option Lambda) (arguments : Arguments) : Memoized String := do
  if assignments.isEmpty then
    throw (.misuse ("UPDATE of " ++ table.name ++ " without assignments"))
  let sets ← liftM (assignments.mapM (w.setText table arguments))
  let clause ← w.exactWhere table restriction arguments "UPDATE"
  return spaced (["UPDATE " ++ table.quotedName, "SET " ++ Text.join ", " sets] ++ clause)

def delete (table : Table) (restriction : Option Lambda) (arguments : Arguments) :
    Memoized String := do
  let clause ← w.exactWhere table restriction arguments "DELETE"
  return spaced (["DELETE FROM " ++ table.quotedName] ++ clause)

/-- The value of a row for a column, unless it is NULL. -/
def givenValue? (row : Row) (c : Column) : Option Value :=
  (row.get? c.key).filter fun value => !value.isNull

/-- The database generates the value of a column. -/
def generates (row : Row) (c : Column) : Bool :=
  c.isGenerated && (givenValue? row c).isNone

/-- The name and the literal of a column that an INSERT gives a value. -/
def insertCell (row : Row) (c : Column) : Outcome (Option (String × String)) :=
  match givenValue? row c with
  | some value => do
      let literal ← c.encode w.dialect value
      .ok (some (c.quotedName, literal))
  | none =>
      .ok (if !c.isGenerated && row.has c.key then some (c.quotedName, "NULL") else none)

/-- An INSERT statement without its returned columns. -/
def insertText (table : Table) (cells : List (String × String)) : String :=
  if cells.isEmpty then w.dialect.emptyInsert table.quotedName
  else
    "INSERT INTO " ++ table.quotedName ++ " " ++
      Text.bracketed (Text.join ", " (cells.map Prod.fst)) ++ " VALUES " ++
      Text.bracketed (Text.join ", " (cells.map Prod.snd))

/-- An INSERT statement.  It returns generated values if the database can. -/
def insert (table : Table) (row : Row) : Outcome CompiledQuery := do
  if let some (key, _) := row.find? fun (key, _) => (table.column? key).isNone then
    .error (.unmapped ("table " ++ table.name ++ " has no column " ++ Text.quoted key))
  let cells ← table.columns.mapM (w.insertCell row)
  let sql := w.insertText table (cells.filterMap id)
  let generated := table.columns.filter (generates row)
  if generated.isEmpty || !w.dialect.hasReturning then
    .ok { sql, exact := true, columns := [] }
  else
    .ok
      { sql := sql ++ " RETURNING " ++ Text.join ", " (generated.map Column.quotedName)
        exact := true
        columns := generated.map fun c => .ofColumn c.key 0 c }

end Workspace

end RowQuery
