import RowQuery.Dialect.Ansi

/-!
# SQLite

Truth values are integers, dates and times are texts, and there is one integer
type.  LIKE ignores the case of ASCII letters, so that a test that regards case
may accept texts too many.
-/

namespace RowQuery.Dialect

open RowQuery.ColumnType

def sqliteTypes : TypeCatalog where
  name := "sqlite"
  registered := [
    (plainOf "BOOLEAN" .boolean).withSynonyms ["bool"],
    (integerOf "INTEGER" 8).withSynonyms ["int", "bigint", "smallint", "tinyint"],
    (floatingOf "REAL" 53).withSynonyms ["double", "float", "double precision"],
    (decimalOf "NUMERIC" 1000 1000).withSynonyms ["decimal"],
    (varyingOf "VARCHAR" .varchar 0x40000000).withSynonyms ["character varying", "nvarchar"],
    (longOf "TEXT" .varchar 0x40000000).withSynonyms ["clob"],
    longOf "BLOB" .binary 0x40000000,
    plainOf "DATE" .date,
    plainOf "TIME" .time,
    (plainOf "DATETIME" .datetime).withSynonyms ["timestamp"]]

/-- A number of seconds as a modifier of dates. -/
def secondsModifier (sign seconds : String) : String :=
  "printf('%+.6f seconds', " ++ sign ++ seconds ++ ")"

/-- Arithmetic with dates.  That with times would lose fractions of a second. -/
def sqliteDates (l : Kind × String) (op : Arithmetic) (r : Kind × String) :
    Option String :=
  match l.1, op, r.1 with
  | .date, .add, .interval => some (callText "date" [l.2, secondsModifier "" r.2])
  | .date, .sub, .interval => some (callText "date" [l.2, secondsModifier "-" r.2])
  | .interval, .add, .date => some (callText "date" [r.2, secondsModifier "" l.2])
  | .date, .sub, .date =>
      some ("(CAST((julianday(" ++ l.2 ++ ") - julianday(" ++ r.2 ++
        ")) AS INTEGER) * 86400)")
  | _, _, _ => none

/-- The letter of a field in formats. -/
def sqliteField : DatePart → String
  | .year => "%Y"
  | .month => "%m"
  | .day => "%d"
  | .hour => "%H"
  | .minute => "%M"
  | .second => "%S"

/-- The query for the columns of a table. -/
def sqliteColumnsQuery (table : String) : String :=
  "SELECT name, type, NULL, NULL, NULL, pk, dflt_value, " ++
  "CASE WHEN pk = 1 AND upper(type) = 'INTEGER' THEN 1 ELSE 0 END " ++
  "FROM pragma_table_info(" ++ enclose '\'' table ++ ") ORDER BY cid"

/-- The query for the indices of a table. -/
def sqliteIndicesQuery (table : String) : String :=
  "SELECT il.name, ii.name, il.\"unique\" " ++
  "FROM pragma_index_list(" ++ enclose '\'' table ++
  ") AS il, pragma_index_info(il.name) AS ii " ++
  "WHERE il.origin = 'c' ORDER BY il.name"

def sqlite : Dialect where
  name := "sqlite"
  types := sqliteTypes
  truthLiteral := fun b => if b then "1" else "0"
  truthClause := fun b => if b then "1=1" else "1=0"
  dateLiteral := fun date => enclose '\'' date.toText
  timeLiteral := fun time => enclose '\'' time.toText
  datetimeLiteral := fun moment => enclose '\'' (moment.toText " ")
  trueDivide := fun l r => Text.bracketed (spaced ["CAST(" ++ l ++ " AS REAL)", "/", r])
  dateArithmetic := sqliteDates
  foldsUnicode := false
  like := fun expr pattern ignoreCase =>
    (spaced [expr, "LIKE", pattern, "ESCAPE", enclose '\'' escapeText], ignoreCase)
  length := fun expr => callText "LENGTH" [expr]
  now := "datetime('now', 'localtime')"
  today := "date('now', 'localtime')"
  extract := fun part expr =>
    "CAST(" ++ callText "strftime" ["'" ++ sqliteField part ++ "'", expr] ++ " AS INTEGER)"
  limitClause := limitText (some "-1")
  hasRightJoin := false
  lastKeyQuery := some "SELECT last_insert_rowid()"
  reservedNames := ["rowid", "oid", "_rowid_"]
  generatedClause := none
  declaresKeyInline := true
  tablesQuery :=
    "SELECT name FROM sqlite_master " ++
    "WHERE type = 'table' AND name NOT LIKE 'sqlite\\_%' ESCAPE '\\' " ++
    "ORDER BY name"
  columnsQuery := sqliteColumnsQuery
  indicesQuery := fun table => some (sqliteIndicesQuery table)

end RowQuery.Dialect
