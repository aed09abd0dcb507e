import RowQuery.Database

/-!
# Rows of a table

Insertion, change, deletion and selection of rows.  Where a restriction has no
exact SQL form the rows are fetched, filtered and then written one by one by their
keys, so that a write never touches a row too many.
-/

namespace RowQuery.Table

open RowQuery.Database

/-- Read the generated key into a stored row. -/
def withGenerated (stored : Row) (column : Column) : Option Cell → Outcome Row
  | none => .ok stored
  | some cell => do
      let value ← column.decode cell
      .ok (stored.put column.key value)

/-- The stored row with the values that an INSERT returned. -/
def withReturned (stored : Row) (compiled : CompiledQuery) (response : Response) :
    Outcome Row :=
  match response.rows.head? with
  | none => .ok stored
  | some cells => do
      let returned ← compiled.decodeRow cells
      .ok (stored.extend returned)

/-- Insert a row; the result is the row with its generated values. -/
def insert (t : Table) (row : Row) : Action Row := do
  let workspace := (← get).workspace
  let compiled ← liftM (workspace.insert t row)
  if !compiled.columns.isEmpty then
    let response ← execute compiled.sql
    liftM (withReturned row compiled response)
  else
    match t.columns.filter (Workspace.generates row), workspace.dialect.lastKeyQuery with
    | [column], some query =>
        let responses ← executeAll [compiled.sql, query]
        liftM (withGenerated row column (responses.getLast?.bind Response.scalar?))
    | _, _ =>
        let _ ← execute compiled.sql
        return row

/-- The fault of a row without a value for a key column. -/
def keylessRow (t : Table) (c : Column) : Fault :=
  .misuse ("row has no value for key " ++ t.name ++ "." ++ c.key)

/-- The condition that a key column has the value of a row. -/
def keyTerm (t : Table) (row : Row) (c : Column) : Outcome Term :=
  match Workspace.givenValue? row c with
  | some value => .ok (.compare (.field (.param 0) c.key) .eq (.constant value))
  | none => .error (t.keylessRow c)

/-- The expression that accepts just the row with the key of the given one. -/
def keyRestriction (t : Table) (row : Row) : Outcome Lambda := do
  let terms ← t.keyColumns.mapM (t.keyTerm row)
  match terms with
  | [] => .error (.misuse ("table " ++ t.name ++ " has no primary key"))
  | term :: terms => Lambda.make [t.name] (terms.foldl Term.and term)

/-- The number of rows that a statement touches. -/
def executeCounting (sql : String) : Action Nat := do
  let response ← execute sql
  return response.affected.getD 0

/-- The number of rows that several statements touch. -/
def executeAllCounting (statements : List String) : Action Nat := do
  if statements.isEmpty then return 0
  let responses ← executeAll statements
  return (responses.filterMap Response.affected).foldl (· + ·) 0

/-- The values of a row for the columns outside of the key. -/
def plainAssignments (t : Table) (row : Row) : List (String × Assignment) :=
  (t.columns.filter fun c => !c.isKey).filterMap fun c =>
    (row.get? c.key).map fun value => (c.key, .value value)

/-- Write the values of a row to the stored row with the same key. -/
def save (t : Table) (row : Row) : Action Nat := do
  let restriction ← liftM (t.keyRestriction row)
  let assignments := t.plainAssignments row
  if assignments.isEmpty then return 0
  let sql ← Action.write fun w => w.update t assignments (some restriction) []
  executeCounting sql

/-- Delete the stored row with the key of a row. -/
def delete (t : Table) (row : Row) : Action Nat := do
  let restriction ← liftM (t.keyRestriction row)
  let sql ← Action.write fun w => w.delete t (some restriction) []
  executeCounting sql

/-- The restriction compiles, but accepts rows too many.  A restriction that does
not compile is left to the statement itself. -/
def isInexact (t : Table) (restriction : Option Lambda) (arguments : Arguments) :
    Action Bool := do
  match restriction with
  | none => return false
  | some e =>
      match ← Action.attempt (Action.write fun w => w.restriction [.ofTable t] e arguments) with
      | .ok compiled => return !compiled.exact
      | .error _ => return false

/-- The query for the rows of the table. -/
def query (t : Table) (restriction : Option Lambda) (arguments : Arguments) : Query :=
  { relation := .table t, restriction, arguments }

/-- The rows that a restriction accepts. -/
def selectAll (t : Table) (restriction : Option Lambda) (arguments : Arguments) :
    Action (List Row) :=
  select (t.query restriction arguments)

/-- The first row that a restriction accepts. -/
def selectFirst (t : Table) (restriction : Option Lambda) (arguments : Arguments) :
    Action (Option Row) := do
  let inexact ← t.isInexact restriction arguments
  let query := t.query restriction arguments
  let rows ← select (if inexact then query else { query with limit := some 1 })
  return rows.head?

/-- The rows for a write whose restriction has no exact SQL form. -/
def fallbackRows (t : Table) (restriction : Option Lambda) (arguments : Arguments)
    (statement : String) : Action (List Row) := do
  if t.keyColumns.isEmpty then
    throw (.inexact (statement ++ " of " ++ t.name ++ " needs an exact restriction: " ++
      "the table has no primary key to fall back on"))
  t.selectAll restriction arguments

/-- One statement for each of some rows, by the key of the row. -/
def statementsByKey (t : Table) (write : Lambda → Workspace → Memoized String) :
    List Row → Action (List String)
  | [] => return []
  | row :: rows => do
      let restriction ← liftM (t.keyRestriction row)
      let sql ← Action.write (write restriction)
      let sqls ← statementsByKey t write rows
      return sql :: sqls

/-- Change all rows that a restriction accepts. -/
def saveAll (t : Table) (assignments : List (String × Assignment))
    (restriction : Option Lambda) (arguments : Arguments) : Action Nat := do
  if ← t.isInexact restriction arguments then
    let rows ← t.fallbackRows restriction arguments "UPDATE"
    let statements ← t.statementsByKey
      (fun key w => w.update t assignments (some key) arguments) rows
    executeAllCounting statements
  else
    let sql ← Action.write fun w => w.update t assignments restriction arguments
    executeCounting sql

/-- Delete all rows that a restriction accepts. -/
def deleteAll (t : Table) (restriction : Option Lambda) (arguments : Arguments) :
    Action Nat := do
  if ← t.isInexact restriction arguments then
    let rows ← t.fallbackRows restriction arguments "DELETE"
    let statements ← t.statementsByKey (fun key w => w.delete t (some key) []) rows
    executeAllCounting statements
  else
    let sql ← Action.write fun w => w.delete t restriction arguments
    executeCounting sql

end RowQuery.Table
