import RowQuery.Schema

/-!
# Discovery

The tables of an existing database from its catalog.  The catalog answers in rows:
for a table its name; for a column its name, type, length, digits, places, key or
not, default, generated or not; for an index its name, its column, unique or not.
-/

namespace RowQuery.Discovery

open RowQuery.Database RowQuery.Number

/-- The text of a cell, unless it is NULL. -/
def cellText? : Cell → Option String
  | .null => none
  | .text s => some s
  | .int i => some (intText i.toInt)
  | .float x => some (Binary64.plainText x)
  | .bool b => some (if b then "true" else "false")
  | .bytes b => Codec.utf8? b
  | .halves high low => some (intText (Cell.joinHalves high low).toInt)

def cellNumber? (cell : Cell) : Option Nat :=
  (cellText? cell).bind fun text => readBounded? wordMax (Text.trimChars text.toList)

def yesWords : List String := ["1", "t", "true", "yes", "y"]

/-- The truth of a cell. -/
def cellFlag : Cell → Bool
  | .bool b => b
  | .int i => i != 0
  | cell => (cellText? cell).any fun text => yesWords.contains (Text.asciiLower (Text.trim text))

/-- The cell at a position, or NULL. -/
def cellAt (row : List Cell) (i : Nat) : Cell :=
  row[i]?.getD .null

/-- A text without the quotation marks around it. -/
def trimQuotes (text : List Char) : List Char :=
  Text.dropEndWhile (· == '"') (text.dropWhile (· == '"'))

/-- The sequence that a default draws from: the first text in single quotes behind
`nextval(`. -/
def sequenceOf? (default : String) : Option String := do
  let call ← Text.dropFront? "nextval(".toList (Text.trimChars default.toList)
  let (_, rest) ← Text.cutAt? (· == '\'') call
  let (name, _) ← Text.cutAt? (· == '\'') rest
  return String.ofList (trimQuotes name)

/-- The text of a literal behind its opening quote, up to the closing one. -/
def literalBody : List Char → List Char
  | '\'' :: '\'' :: rest => '\'' :: literalBody rest
  | '\'' :: _ => []
  | c :: rest => c :: literalBody rest
  | [] => []

/-- A default as a cell would hold it: a literal without its quotes, anything else
without casts and brackets. -/
def plainDefault (default : String) : String :=
  match Text.trimChars default.toList with
  | '\'' :: rest => String.ofList (literalBody rest)
  | text =>
      let bare := Text.trimChars (Text.before [':', ':'] text)
      String.ofList (Text.dropEndWhile (· == ')') (bare.dropWhile (· == '(')))

/-- A column as the catalog describes it. -/
structure CatalogColumn where
  name : String
  type : ColumnType
  isKey : Bool
  isGenerated : Bool
  default : Option String

namespace CatalogColumn

def read (types : TypeCatalog) (table : String) (row : List Cell) : Outcome CatalogColumn := do
  match cellText? (cellAt row 0) with
  | none => .error (.unmapped ("unnamed column in " ++ table))
  | some name =>
      let type ← types.ofTypeName ((cellText? (cellAt row 1)).getD "")
        (cellNumber? (cellAt row 2)) ((cellNumber? (cellAt row 3)).map TypeCatalog.halfWord)
        ((cellNumber? (cellAt row 4)).map TypeCatalog.halfWord)
      .ok { name, type, isKey := cellFlag (cellAt row 5), isGenerated := cellFlag (cellAt row 7),
            default := cellText? (cellAt row 6) }

/-- The sequence that generates the values. -/
def sequence? (c : CatalogColumn) : Option String :=
  c.default.bind sequenceOf?

/-- The declaration of the column. -/
def spec (c : CatalogColumn) : ColumnSpec :=
  let kind := c.type.family.kind
  { key := c.name, kind, request := { explicit := some c.type }, isKey := c.isKey,
    isGenerated := (c.isGenerated || c.sequence?.isSome) && kind = .int }

/-- The default as a value, if it can be read and is not NULL. -/
def defaultValue? (c : CatalogColumn) (column : Column) : Option Value := do
  let text ← c.default
  let value ← (column.decode (.text (plainDefault text))).toOption
  if value.isNull then none else some value

/-- The column with its sequence or its default. -/
def complete (c : CatalogColumn) (column : Column) : Column :=
  if c.sequence?.isSome then { column with sequence := c.sequence? }
  else if column.isGenerated then column
  else
    match c.defaultValue? column with
    | some value => { column with default := some value }
    | none => column

end CatalogColumn

/-- The table with one more column from the catalog. -/
def takeColumn (dialect : Dialect) (t : Table) (row : List Cell) : Outcome Table := do
  let column ← CatalogColumn.read dialect.types t.name row
  let t ← t.define dialect column.spec
  .ok { t with columns := Table.updateColumn column.complete column.name t.columns }

/-- An index as the catalog describes it. -/
def readIndex? (dialect : Dialect) (table : String) (row : List Cell) : Option Index := do
  let name ← cellText? (cellAt row 0)
  let column ← cellText? (cellAt row 1)
  return { name, quotedName := dialect.quoteName name, table, column,
           unique := cellFlag (cellAt row 2) }

/-- The table with the indices from the catalog.  Of an index on several columns
only the first is kept. -/
def takeIndices (t : Table) (seen : List String) : List Index → Outcome Table
  | [] => .ok t
  | index :: rest =>
      if seen.contains index.name then takeIndices t seen rest
      else if !t.columns.any fun c => c.name = index.column then
        .error (.unmapped ("index " ++ index.name ++ " names unknown column " ++ t.name ++ "." ++
          index.column))
      else takeIndices (t.attachIndex index) (index.name :: seen) rest

/-- A table from the catalog. -/
def discoverTable (name : String) : Action Table := do
  let dialect ← Action.dialect
  let columns ← execute (dialect.columnsQuery name)
  let t ← liftM (columns.rows.foldlM (takeColumn dialect) (Table.new dialect name))
  match dialect.indicesQuery name with
  | none => return { t with state := .created }
  | some query =>
      let indices ← execute query
      let t ← liftM (takeIndices t [] (indices.rows.filterMap (readIndex? dialect name)))
      return { t with state := .created }

/-- Add the tables of some names to the schema. -/
def discoverTables : List String → Session Unit
  | [] => return ()
  | name :: names => do
      let t ← Session.onDatabase (discoverTable name)
      Schema.addTable t
      discoverTables names

/-- The schema of the tables in the database.  If that fails the schema stays as it
was. -/
def discover : Session Unit := do
  let before ← get
  let response ← Session.onDatabase do
    execute (← Action.dialect).tablesQuery
  set { (← get) with tables := [], views := [] }
  let names := response.rows.filterMap fun row => row.head?.bind cellText?
  match ← Session.attempt (discoverTables names) with
  | .ok _ => return ()
  | .error cause =>
      modify fun schema => { schema with tables := before.tables, views := before.views }
      throw cause

end RowQuery.Discovery
