import RowQuery.Table.Change
import RowQuery.Table.Rows
import RowQuery.View

/-!
# Schemas

The tables and views of a database by their names.
-/

namespace RowQuery

/-- A database with its tables and views. -/
structure Schema where
  database : Database
  tables : Keyed Table := []
  views : Keyed View := []

/-- A computation on a schema.  A fault keeps what happened before it. -/
abbrev Session := ExceptT Fault (StateM Schema)

namespace Session

/-- Do something with the database. -/
def onDatabase {α : Type} (action : Action α) : Session α := fun schema =>
  let (outcome, database) := action.run schema.database
  (outcome, { schema with database })

/-- Alter a table.  The table comes back with a fault too, as the alteration left it. -/
def onTable (t : Table) (alteration : Alteration Unit) : Session (Outcome Unit × Table) :=
  fun schema =>
    let (outcome, t, database) := alteration.run (t, schema.database)
    (.ok (outcome, t), { schema with database })

/-- Run a computation and keep its fault as a result. -/
def attempt {α : Type} (action : Session α) : Session (Outcome α) := fun schema =>
  let (outcome, schema) := action.run schema
  (.ok outcome, schema)

def modifyTables (change : Keyed Table → Keyed Table) : Session Unit :=
  modify fun schema => { schema with tables := change schema.tables }

def modifyViews (change : Keyed View → Keyed View) : Session Unit :=
  modify fun schema => { schema with views := change schema.views }

end Session

namespace Schema

open Session

/-- Neither a table nor a view has a name. -/
def ensureUnused (name : String) : Session Unit := do
  let schema ← get
  if schema.tables.has name || schema.views.has name then throw (.duplicate name)

/-- The fault for a table that is not there. -/
def noTable (name : String) : Fault :=
  .unmapped ("no table " ++ name)

def requireTable (schema : Schema) (name : String) : Outcome Table :=
  match schema.tables.get? name with
  | some t => .ok t
  | none => .error (noTable name)

/-- The table or the columns of the view of a name. -/
def requireRelation (schema : Schema) (name : String) : Outcome Table :=
  match schema.tables.get? name, schema.views.get? name with
  | some t, _ => .ok t
  | none, some v => .ok v.table
  | none, none => .error (noTable name)

def addTable (t : Table) : Session Unit := do
  ensureUnused t.name
  modifyTables (Keyed.put t.name t)

def addView (v : View) : Session Unit := do
  ensureUnused v.name
  modifyViews (Keyed.put v.name v)

/-- Alter the table under a name in its place. -/
def alterTable (name : String) (alteration : Alteration Unit) : Session Unit := do
  let t ← (← get).requireTable name
  let (outcome, t) ← onTable t alteration
  modifyTables (Keyed.put name t)
  outcome

/-- Put what can be made of the table under a name in its place. -/
def changeTable (name : String) (change : Table → Action Table) : Session Unit := do
  let t ← (← get).requireTable name
  let t ← onDatabase (change t)
  modifyTables (Keyed.put name t)

/-- Change the view under a name. -/
def changeView (name : String) (change : View → Action View) : Session Unit := do
  match (← get).views.get? name with
  | none => throw (noTable name)
  | some v =>
      let v ← onDatabase (change v)
      modifyViews (Keyed.put name v)

/-- Create the tables and views that are not in the database, tables first. -/
def createAll : Session Unit := do
  for (name, t) in (← get).tables do
    if !t.isCreated then alterTable name .create
  for (name, v) in (← get).views do
    if !v.table.isCreated then changeView name View.create

/-- Drop every view, then every table, and forget them. -/
def dropAll : Session Unit := do
  for (name, v) in (← get).views do
    modifyViews (Keyed.erase name)
    let _ ← onDatabase v.drop
  for (name, t) in (← get).tables do
    modifyTables (Keyed.erase name)
    let _ ← onDatabase t.drop

def dropTable (name : String) : Session Unit := do
  alterTable name .drop
  modifyTables (Keyed.erase name)

/-- Rename a table and turn the references to it.  The table is taken out meanwhile
and put back if that fails. -/
def renameTable (old new : String) : Session Unit := do
  ensureUnused new
  let t ← (← get).requireTable old
  modifyTables (Keyed.erase old)
  let (outcome, t) ← onTable t (.rename new)
  match outcome with
  | .ok _ =>
      modifyTables fun tables =>
        (tables.put new t).map fun (name, t) => (name, t.retargeted old new)
  | .error cause =>
      modifyTables (Keyed.put old t)
      throw cause

end Schema

end RowQuery
