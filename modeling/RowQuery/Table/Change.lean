import RowQuery.Database
import RowQuery.Table.Statements

/-!
# Changes of tables

A table is altered in place.  A table that is in the database is changed there too,
and what was changed in memory before that failed is undone.
-/

namespace RowQuery

/-- The statements that add the column of a key, which the table has already. -/
def Table.addition (t : Table) (d : Dialect) (key : String) : Outcome (List String) := do
  let column ← t.require key
  d.addColumn t column

/-- A computation on a table of a database.  A fault keeps what happened before it. -/
abbrev Alteration := ExceptT Fault (StateM (Table × Database))

namespace Alteration

/-- The table as it stands. -/
def table : Alteration Table :=
  return (← get).1

/-- The dialect of the database. -/
def dialect : Alteration Dialect :=
  return (← get).2.workspace.dialect

/-- Do something with the database. -/
def onDatabase {α : Type} (action : Action α) : Alteration α := fun (t, db) =>
  let (outcome, db) := action.run db
  (outcome, t, db)

/-- Run a computation and keep its fault as a result. -/
def attempt {α : Type} (alteration : Alteration α) : Alteration (Outcome α) := fun place =>
  let (outcome, place) := alteration.run place
  (.ok outcome, place)

/-- Change the table in memory. -/
def update (change : Table → Table) : Alteration Unit :=
  modify fun (t, db) => (change t, db)

/-- Put in the place of the table what can be made of it. -/
def replace (make : Dialect → Table → Outcome Table) : Alteration Unit := do
  let made ← liftM (make (← dialect) (← table))
  update fun _ => made

/-- Run statements that change the schema. -/
def issue (statements : Dialect → Table → Outcome (List String)) : Alteration Unit := do
  let statements ← liftM (statements (← dialect) (← table))
  onDatabase (Database.changeSchema statements)

/-- Run statements if the table is in the database. -/
def issueIfCreated (statements : Dialect → Table → Outcome (List String)) :
    Alteration Unit := do
  if (← table).isCreated then issue statements

/-- Create the table. -/
def create : Alteration Unit := do
  let t ← table
  t.ensureLive
  if t.isCreated then throw (.misuse ("table " ++ t.name ++ " already exists"))
  issue Dialect.createTable
  update fun t => { t with state := .created }

/-- Drop the table. -/
def drop : Alteration Unit := do
  (← table).ensureLive
  issueIfCreated fun d t => .ok (d.dropTable t)
  update fun t => { t with state := .dropped }

/-- Rename the table. -/
def rename (name : String) : Alteration Unit := do
  (← table).ensureLive
  issueIfCreated fun d t => .ok [d.renameTable t.name name]
  let d ← dialect
  update fun t => t.renamed d name

/-- Add a column.  It is taken back if its statements cannot be written or fail. -/
def extend (spec : ColumnSpec) : Alteration Unit := do
  (← table).ensureLive
  replace fun d t => t.addColumn d spec
  match ← attempt (issueIfCreated fun d t => t.addition d spec.key) with
  | .ok _ => return ()
  | .error cause =>
      update fun t => t.forgetColumn spec.key
      throw cause

def dropColumn (key : String) : Alteration Unit := do
  let t ← table
  t.ensureLive
  let column ← liftM (t.require key)
  issueIfCreated fun d t => .ok (d.dropColumn t column)
  update fun t => t.forgetColumn key

/-- Rename the column of a key.  The key stays, so that expressions stay valid. -/
def renameColumn (key name : String) : Alteration Unit := do
  let t ← table
  t.ensureLive
  let column ← liftM (t.require key)
  if t.columns.any fun c => c.name = name then
    throw (.duplicate (t.name ++ "." ++ name))
  issueIfCreated fun d t => .ok [d.renameColumn t column name]
  let d ← dialect
  update fun t => t.columnRenamed d column name

def addIndex (key : String) (unique : Bool) : Alteration Unit := do
  let t ← table
  t.ensureLive
  let index ← liftM (t.newIndex (← dialect) key unique)
  issueIfCreated fun d _ => .ok [d.createIndex index]
  update fun t => t.withIndex index

def dropIndex (name : String) : Alteration Unit := do
  let t ← table
  t.ensureLive
  match t.indices.find? fun i => i.name = name with
  | none => throw (.unmapped ("no index " ++ name ++ " on table " ++ t.name))
  | some index =>
      issueIfCreated fun d _ => .ok [d.dropIndexStatement index]
      update fun t => { t with indices := t.indices.eraseP fun i => i.name = name }

def define (spec : ColumnSpec) : Alteration Unit :=
  replace fun d t => t.define d spec

def defineIndex (key : String) (unique : Bool) : Alteration Unit :=
  replace fun d t => t.defineIndex d key unique

/-- Declare a reference to a column of another table. -/
def reference (near : String) (farTable : Table) (far : String) : Alteration Unit :=
  replace fun _ t => t.reference near farTable far

end Alteration

namespace Table

/-- The table that an alteration leaves. -/
def altered (alteration : Alteration Unit) (t : Table) : Action Table := fun db =>
  let (outcome, t, db) := alteration.run (t, db)
  (outcome.map fun _ => t, db)

/-- The table after it is created. -/
def create (t : Table) : Action Table :=
  t.altered .create

/-- The table after it is dropped. -/
def drop (t : Table) : Action Table :=
  t.altered .drop

/-- The table after it is renamed. -/
def rename (t : Table) (name : String) : Action Table :=
  t.altered (.rename name)

/-- The table after a column is added. -/
def extend (t : Table) (spec : ColumnSpec) : Action Table :=
  t.altered (.extend spec)

/-- The table after the column of a key is dropped. -/
def dropColumn (t : Table) (key : String) : Action Table :=
  t.altered (.dropColumn key)

/-- The table after the column of a key is renamed. -/
def renameColumn (t : Table) (key name : String) : Action Table :=
  t.altered (.renameColumn key name)

/-- The table after an index is added. -/
def addIndex (t : Table) (key : String) (unique : Bool) : Action Table :=
  t.altered (.addIndex key unique)

/-- The table after the index of a name is dropped. -/
def dropIndex (t : Table) (name : String) : Action Table :=
  t.altered (.dropIndex name)

end Table

end RowQuery
