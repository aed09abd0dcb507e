import RowQuery.Codec

/-!
# Tables

Tables with their columns, indices and references, as declared or as found in a
database.  A column is addressed by its key; its name is what the database calls
it, and the two differ only by declaration or after renaming.
-/

namespace RowQuery

/-- A column of a resolved type. -/
structure Column where
  key : String
  name : String
  quotedName : String
  kind : Kind
  type : ColumnType
  default : Option Value := none
  isKey : Bool := false
  /-- The database generates missing values. -/
  isGenerated : Bool := false
  /-- The sequence that generates values. -/
  sequence : Option String := none

namespace Column

/-- The codec of the values. -/
def codec (c : Column) : Codec :=
  Codec.ofKind c.kind c.type

/-- The literal of a value for this column. -/
def encode (c : Column) (dialect : Dialect) (value : Value) : Outcome String :=
  c.codec.encode dialect c.type value

/-- The value of a raw cell of this column. -/
def decode (c : Column) (cell : Cell) : Outcome Value :=
  c.codec.decode c.type cell

end Column

/-- The declaration of a column. -/
structure ColumnSpec where
  key : String
  /-- The name in the database, if it is not the key. -/
  name : Option String := none
  kind : Kind
  request : TypeRequest := {}
  isKey : Bool := false
  isGenerated : Bool := false
  default : Option Value := none

namespace ColumnSpec

/-- The name in the database. -/
def columnName (s : ColumnSpec) : String :=
  s.name.getD s.key

/-- The default, unless it is NULL. -/
def givenDefault (s : ColumnSpec) : Option Value :=
  s.default.filter fun value => !value.isNull

/-- Refuse reserved names and generated columns of other kinds than integers or
with a default. -/
def check (s : ColumnSpec) (table : String) (dialect : Dialect) : Outcome Unit :=
  let place := table ++ "." ++ s.columnName
  if dialect.reservedNames.any fun name => Text.sameIgnoringCase name s.columnName then
    .error (.reserved (s.columnName ++ " is reserved by " ++ dialect.name ++
      " (table " ++ table ++ ")"))
  else if s.isGenerated && s.kind ≠ .int then
    .error (.misuse ("autoincrement column " ++ place ++ " must hold int values, not " ++
      s.kind.name))
  else if s.isGenerated && s.givenDefault.isSome then
    .error (.misuse ("autoincrement column " ++ place ++ " cannot also declare a default"))
  else .ok ()

/-- The column of a declaration.  Its default has to be a value of its type. -/
def build (s : ColumnSpec) (table : String) (dialect : Dialect) : Outcome Column := do
  s.check table dialect
  let type ← dialect.types.resolve s.kind s.request
  let column : Column :=
    { key := s.key, name := s.columnName, quotedName := dialect.quoteName s.columnName,
      kind := s.kind, type, default := s.givenDefault, isKey := s.isKey,
      isGenerated := s.isGenerated,
      sequence := if s.isGenerated then dialect.sequenceName table s.columnName else none }
  match column.default with
  | some value => do
      let _ ← column.encode dialect value
      .ok column
  | none => .ok column

end ColumnSpec

/-- A reference from a column of a table to a column of another. -/
structure Reference where
  /-- The key of the referring column. -/
  near : String
  farTable : String
  /-- The key of the column referred to. -/
  far : String
  deriving DecidableEq

/-- An index on one column. -/
structure Index where
  name : String
  quotedName : String
  table : String
  column : String
  unique : Bool
  deriving DecidableEq

/-- The index on a column, named for its table and the column. -/
def Index.onColumn (dialect : Dialect) (table column : String) (unique : Bool) : Index :=
  let name := table ++ "_" ++ column ++ "_idx"
  { name, quotedName := dialect.quoteName name, table, column, unique }

/-- Whether a table exists in the database. -/
inductive TableState where
  /-- Declared only; changes stay in memory. -/
  | uncreated
  /-- In the database; changes are made there too. -/
  | created
  | dropped
  deriving DecidableEq

def TableState.name : TableState → String
  | uncreated => "uncreated"
  | created => "created"
  | dropped => "dropped"

/-- A table. -/
structure Table where
  name : String
  quotedName : String
  columns : List Column := []
  indices : List Index := []
  references : List Reference := []
  state : TableState := .uncreated

namespace Table

/-- A table without columns. -/
def new (dialect : Dialect) (name : String) : Table :=
  { name, quotedName := dialect.quoteName name }

def column? (t : Table) (key : String) : Option Column :=
  t.columns.find? fun c => c.key = key

/-- The columns of the primary key. -/
def keyColumns (t : Table) : List Column :=
  t.columns.filter Column.isKey

/-- The references to another table. -/
def referencesTo (t : Table) (far : String) : List Reference :=
  t.references.filter fun r => r.farTable = far

/-- The table exists in the database. -/
def isCreated (t : Table) : Bool :=
  t.state = .created

/-- The column of a key, as a declaration needs it. -/
def require (t : Table) (key : String) : Outcome Column :=
  match t.column? key with
  | some c => .ok c
  | none => .error (.unmapped ("no column " ++ key ++ " in table " ++ t.name))

/-- The column of a key, as a statement needs it. -/
def lookup (t : Table) (key : String) : Outcome Column :=
  match t.column? key with
  | some c => .ok c
  | none => .error (.unmapped ("table " ++ t.name ++ " has no column " ++ Text.quoted key))

/-- Refuse a dropped table. -/
def ensureLive (t : Table) : Outcome Unit :=
  if t.state = .dropped then .error (.dropped ("table " ++ t.name)) else .ok ()

/-- The table with one more column.  Keys and names of columns are unique. -/
def addColumn (t : Table) (dialect : Dialect) (spec : ColumnSpec) : Outcome Table := do
  if (t.column? spec.key).isSome then
    .error (.duplicate (t.name ++ "." ++ spec.key))
  let column ← spec.build t.name dialect
  if t.columns.any fun c => c.name = column.name then
    .error (.duplicate (t.name ++ "." ++ column.name))
  let indices :=
    if column.isKey && dialect.indexesKeys then
      t.indices ++ [Index.onColumn dialect t.name column.name true]
    else t.indices
  .ok { t with columns := t.columns ++ [column], indices }

/-- Declare a column of a table that is not in the database yet. -/
def define (t : Table) (dialect : Dialect) (spec : ColumnSpec) : Outcome Table := do
  t.ensureLive
  if t.isCreated then
    .error (.misuse ("table " ++ t.name ++ " already exists; use add_column"))
  t.addColumn dialect spec

/-- The index on the column of a key, if there is none of its name. -/
def newIndex (t : Table) (dialect : Dialect) (key : String) (unique : Bool) : Outcome Index := do
  let column ← t.require key
  let index := Index.onColumn dialect t.name column.name unique
  if t.indices.any fun i => i.name = index.name then .error (.duplicate index.name)
  else .ok index

/-- The table with one more index. -/
def withIndex (t : Table) (index : Index) : Table :=
  { t with indices := t.indices ++ [index] }

def defineIndex (t : Table) (dialect : Dialect) (key : String) (unique : Bool) :
    Outcome Table := do
  t.ensureLive
  let index ← t.newIndex dialect key unique
  .ok (t.withIndex index)

/-- Declare that a column refers to a column of another table. -/
def reference (t : Table) (near : String) (farTable : Table) (far : String) : Outcome Table := do
  let _ ← t.require near
  let _ ← farTable.require far
  .ok { t with references := t.references ++ [⟨near, farTable.name, far⟩] }

/-- Take in an index found in the database, in place of one of its name. -/
def attachIndex (t : Table) (index : Index) : Table :=
  { t with indices := (t.indices.filter fun i => i.name ≠ index.name) ++ [index] }

/-- Change the first column of a key. -/
def updateColumn (change : Column → Column) (key : String) : List Column → List Column
  | [] => []
  | c :: rest => if c.key = key then change c :: rest else c :: updateColumn change key rest

/-- The table without the column of a key, its indices and its references. -/
def forgetColumn (t : Table) (key : String) : Table :=
  match t.column? key with
  | none => t
  | some column =>
      { t with
        columns := t.columns.eraseP fun c => c.key = key
        indices := t.indices.filter fun i => i.column ≠ column.name
        references := t.references.filter fun r => r.near ≠ key }

/-- The table under another name.  Index names stay. -/
def renamed (t : Table) (dialect : Dialect) (name : String) : Table :=
  { t with
    name, quotedName := dialect.quoteName name
    indices := t.indices.map fun i => { i with table := name } }

/-- The table with another name for a column. -/
def columnRenamed (t : Table) (dialect : Dialect) (column : Column) (name : String) : Table :=
  { t with
    columns := updateColumn (fun c => { c with name, quotedName := dialect.quoteName name })
      column.key t.columns
    indices := t.indices.map fun i =>
      if i.column = column.name then { i with column := name } else i }

/-- The table with references to one table turned to another. -/
def retargeted (t : Table) (old new : String) : Table :=
  { t with
    references := t.references.map fun r =>
      if r.farTable = old then { r with farTable := new } else r }

end Table

end RowQuery
