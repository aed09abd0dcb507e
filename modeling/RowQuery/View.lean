import RowQuery.Database
import RowQuery.Table.Statements

/-!
# Views

A query under a name.  Its columns can be queried like those of a table.
-/

namespace RowQuery

/-- A view. -/
structure View where
  /-- The columns of the view. -/
  table : Table
  selectSql : String

namespace View

open RowQuery.Database

/-- The name of the view. -/
def name (v : View) : String :=
  v.table.name

/-- The declaration of an output column of a query. -/
def columnSpec (c : OutputColumn) : ColumnSpec :=
  { key := c.name, kind := c.kind, request := { explicit := some c.type } }

/-- The table of the columns of a query. -/
def tableOf (dialect : Dialect) (name : String) (columns : List OutputColumn) :
    Outcome Table :=
  columns.foldlM (fun t c => t.define dialect (columnSpec c)) (Table.new dialect name)

/-- The view of a query, whose restriction has to be exact. -/
def ofQuery (name : String) (q : Query) : Action View := do
  let compiled ← selectStatement q
  if !compiled.exact then
    throw (.inexact ("view " ++ name ++ " needs an exact restriction"))
  let table ← liftM (tableOf (← Action.dialect) name compiled.columns)
  return { table, selectSql := compiled.sql }

/-- The view in another state. -/
def withState (v : View) (state : TableState) : View :=
  { v with table := { v.table with state } }

def create (v : View) : Action View := do
  v.table.ensureLive
  if v.table.isCreated then throw (.misuse ("view " ++ v.name ++ " already exists"))
  changeSchema [(← Action.dialect).createView v.name v.selectSql]
  return v.withState .created

def drop (v : View) : Action View := do
  v.table.ensureLive
  if v.table.isCreated then
    changeSchema [(← Action.dialect).dropView v.name]
  return v.withState .dropped

end View

end RowQuery
