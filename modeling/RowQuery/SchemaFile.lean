import RowQuery.Table
import RowQuery.Toml.MarkedStamp
import RowQuery.Toml.Reading
import RowQuery.Toml.Record

/-!
# Schema files

Tables with their columns, indices and references, declared in a TOML document.
References may lead to tables that are declared later.
-/

namespace RowQuery

open RowQuery.Calendar

/-- The declaration of a column in a file. -/
structure ColumnEntry where
  name : String
  kind : Kind
  request : TypeRequest
  isKey : Bool
  isGenerated : Bool
  default : Option Toml

/-- The declaration of an index in a file. -/
structure IndexEntry where
  column : String
  unique : Bool

/-- The declaration of a reference in a file. -/
structure ReferenceEntry where
  column : String
  table : String
  farColumn : String

/-- The declaration of a table in a file. -/
structure TableEntry where
  name : String
  columns : List ColumnEntry
  indices : List IndexEntry
  references : List ReferenceEntry

/-- A file of tables. -/
structure SchemaFile where
  tables : List TableEntry

namespace ColumnEntry

/-- Read the declaration of a column. -/
def read? (value : Toml) : Option ColumnEntry := do
  let r ← value.record?
  return {
    name := ← r.required "name" 0 Toml.text?
    kind := ← r.required "type" 1 fun value => value.choice?.bind Kind.ofName?
    request := {
      bytes := ← r.optional "bytes" 2 (Toml.natural? Number.wordMax)
      digits := ← r.optional "precision" 3 (Toml.natural? Number.halfMax)
      places := ← r.optional "scale" 4 (Toml.natural? Number.halfMax)
      isSigned := ← r.optional "signed" 5 Toml.truth? }
    isKey := ← r.withDefault "key" 6 Toml.truth? false
    isGenerated := ← r.withDefault "autoincrement" 7 Toml.truth? false
    default := ← r.optional "default" 8 Toml.withStamps? }

/-- A stamp that is not a local date or time. -/
def stampFault (s : Stamp) (reason : String) : Fault :=
  .configuration ("default " ++ s.toText ++ ": " ++ reason)

def stampClock (s : Stamp) (time : DayTime) : Outcome Clock :=
  match time.clock? with
  | some clock => .ok clock
  | none => .error (stampFault s "input is out of range")

/-- A local stamp has no offset from universal time. -/
def ensureLocal (s : Stamp) : Outcome Unit :=
  if s.offset.isSome then .error (stampFault s "trailing input") else .ok ()

/-- A date or a time as a value. -/
def stampValue (s : Stamp) : Outcome Value := do
  match s.date, s.time with
  | some date, some time =>
      let clock ← stampClock s time
      ensureLocal s
      .ok (.datetime ⟨date, clock⟩)
  | some date, none =>
      ensureLocal s
      .ok (.date date)
  | none, some time =>
      let clock ← stampClock s time
      .ok (.time clock)
  | none, none => .ok .null

mutual

def defaultValue : Toml → Outcome Value
  | .string s => .ok (.text s)
  | .integer i => .ok (.int i)
  | .float x => .ok (.float x)
  | .boolean b => .ok (.bool b)
  | .stamp s => stampValue s
  | .array items | .tables items => do
      let values ← defaultValues items
      .ok (.list values)
  | .table _ _ => .error (.configuration "table values cannot be column defaults")

/-- The items of a default as values. -/
def defaultValues : List Toml → Outcome (List Value)
  | [] => .ok []
  | item :: items => do
      let value ← defaultValue item
      let values ← defaultValues items
      .ok (value :: values)

end

/-- The declaration of the column. -/
def spec (c : ColumnEntry) : Outcome ColumnSpec := do
  let default ← c.default.mapM defaultValue
  .ok { key := c.name, kind := c.kind, request := c.request, isKey := c.isKey,
        isGenerated := c.isGenerated, default }

end ColumnEntry

/-- Read the declaration of an index. -/
def IndexEntry.read? (value : Toml) : Option IndexEntry := do
  let r ← value.record?
  return {
    column := ← r.required "column" 0 Toml.text?
    unique := ← r.withDefault "unique" 1 Toml.truth? false }

/-- Read the declaration of a reference. -/
def ReferenceEntry.read? (value : Toml) : Option ReferenceEntry := do
  let r ← value.record?
  return {
    column := ← r.required "column" 0 Toml.text?
    table := ← r.required "table" 1 Toml.text?
    farColumn := ← r.required "foreign_column" 2 Toml.text? }

namespace TableEntry

/-- Read the declaration of a table. -/
def read? (value : Toml) : Option TableEntry := do
  let r ← value.record?
  return {
    name := ← r.required "name" 0 Toml.text?
    columns := ← r.withDefault "columns" 1 (Toml.list? ColumnEntry.read?) []
    indices := ← r.withDefault "indices" 2 (Toml.list? IndexEntry.read?) []
    references := ← r.withDefault "references" 3 (Toml.list? ReferenceEntry.read?) [] }

/-- The table with its columns and indices. -/
def build (e : TableEntry) (dialect : Dialect) : Outcome Table := do
  let t ← e.columns.foldlM (fun t column => do
    let spec ← column.spec
    t.define dialect spec) (Table.new dialect e.name)
  e.indices.foldlM (fun t index => t.defineIndex dialect index.column index.unique) t

end TableEntry

namespace SchemaFile

def read? (text : String) : Option SchemaFile := do
  let members ← Toml.read? text
  let r := Toml.Record.named members
  return { tables := ← r.withDefault "tables" 0 (Toml.list? TableEntry.read?) [] }

/-- Add a reference to the table at a position. -/
def addReference (position : Nat) (tables : List Table) (reference : ReferenceEntry) :
    Outcome (List Table) :=
  match tables.find? fun t => t.name = reference.table, tables[position]? with
  | some far, some near => do
      let near ← near.reference reference.column far reference.farColumn
      .ok (tables.set position near)
  | _, _ => .error (.unmapped ("reference to unknown table " ++ reference.table))

/-- The declared tables in the order of the file. -/
def toTables (f : SchemaFile) (dialect : Dialect) : Outcome (List Table) := do
  let tables ← f.tables.mapM fun entry => entry.build dialect
  f.tables.zipIdx.foldlM (fun tables (entry, position) =>
    entry.references.foldlM (addReference position) tables) tables

end SchemaFile

end RowQuery
