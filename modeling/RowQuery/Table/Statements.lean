import RowQuery.Table

/-!
# Statements that change tables

The SQL that creates, changes and drops tables, columns and indices.
-/

namespace RowQuery.Dialect

/-- The key of the table is declared with its column. -/
def keyIsInline (d : Dialect) (t : Table) : Bool :=
  match t.keyColumns with
  | [column] => d.declaresKeyInline && column.isGenerated
  | _ => false

def defaultClause (d : Dialect) (c : Column) : Outcome String :=
  match c.default.filter fun value => !value.isNull with
  | none => .ok ""
  | some value => do
      let literal ← c.encode d value
      .ok (" DEFAULT " ++ literal)

/-- What generates the values of a column. -/
def generationClause (d : Dialect) (c : Column) : String :=
  match c.sequence with
  | some sequence => " DEFAULT " ++ d.sequenceDefault sequence
  | none => if c.isGenerated then d.generatedClause.getD "" else ""

def typedName (c : Column) : String :=
  c.quotedName ++ " " ++ c.type.declared

/-- The declaration of a column inside its table. -/
def columnDefinition (d : Dialect) (c : Column) : Outcome String :=
  if d.declaresKeyInline then
    if c.isGenerated && c.isKey then
      .ok (c.quotedName ++ " INTEGER PRIMARY KEY AUTOINCREMENT")
    else do
      let default ← d.defaultClause c
      .ok (typedName c ++ default)
  else if c.isGenerated && (c.default.any fun value => !value.isNull) then
    .error (.misuse ("column " ++ c.name ++ " is autoincrement and has a default"))
  else do
    let default ← d.defaultClause c
    .ok (typedName c ++ d.generationClause c ++ default)

def createIndex (d : Dialect) (i : Index) : String :=
  "CREATE " ++ (if i.unique then "UNIQUE " else "") ++ "INDEX " ++ i.quotedName ++ " ON " ++
    d.quoteName i.table ++ " " ++ Text.bracketed (d.quoteName i.column)

def dropIndexStatement (d : Dialect) (i : Index) : String :=
  d.dropIndex i.quotedName i.table

/-- The primary key as a part of its table. -/
def keyClauses (d : Dialect) (t : Table) : List String :=
  if t.keyColumns.isEmpty || d.keyIsInline t then []
  else ["PRIMARY KEY (" ++ Text.join ", " (t.keyColumns.map Column.quotedName) ++ ")"]

/-- The statements that create a table: its sequences, the table, its indices. -/
def createTable (d : Dialect) (t : Table) : Outcome (List String) := do
  let definitions ← t.columns.mapM d.columnDefinition
  .ok ((t.columns.filterMap Column.sequence).map d.createSequence ++
    ["CREATE TABLE " ++ t.quotedName ++ " " ++
      Text.bracketed (Text.join ", " (definitions ++ d.keyClauses t))] ++
    t.indices.map d.createIndex)

/-- The statements that drop a table and its sequences. -/
def dropTable (d : Dialect) (t : Table) : List String :=
  ("DROP TABLE " ++ t.quotedName) :: (t.columns.filterMap Column.sequence).map d.dropSequence

/-- The statements that add a column. -/
def addColumn (d : Dialect) (t : Table) (c : Column) : Outcome (List String) := do
  let definition ← d.columnDefinition c
  .ok (c.sequence.toList.map d.createSequence ++
    ["ALTER TABLE " ++ t.quotedName ++ " ADD COLUMN " ++ definition])

/-- The statements that drop a column. -/
def dropColumn (d : Dialect) (t : Table) (c : Column) : List String :=
  ("ALTER TABLE " ++ t.quotedName ++ " DROP COLUMN " ++ c.quotedName) ::
    c.sequence.toList.map d.dropSequence

def renameColumn (d : Dialect) (t : Table) (c : Column) (name : String) : String :=
  "ALTER TABLE " ++ t.quotedName ++ " RENAME COLUMN " ++ c.quotedName ++ " TO " ++
    d.quoteName name

end RowQuery.Dialect
