import RowQuery.Dialect.Ansi

/-!
# MySQL

Backslashes inside texts are escaped too, texts compare as bytes to tell letters
apart by case, and keys are generated without sequences.
-/

namespace RowQuery.Dialect

open RowQuery.ColumnType

/-- The types of MySQL. -/
def mysqlTypes : TypeCatalog where
  name := "mysql"
  registered := [
    (plainOf "BOOLEAN" .boolean).withSynonyms ["bool", "tinyint(1)"],
    integerOf "TINYINT" 1,
    integerOf "SMALLINT" 2,
    integerOf "MEDIUMINT" 3,
    (integerOf "INT" 4).withSynonyms ["integer"],
    integerOf "BIGINT" 8,
    floatingOf "FLOAT" 24,
    (floatingOf "DOUBLE" 53).withSynonyms ["double precision", "real"],
    (decimalOf "DECIMAL" 65 30).withSynonyms ["numeric"],
    varyingOf "VARCHAR" .varchar 16383,
    longOf "TEXT" .varchar 65535,
    longOf "MEDIUMTEXT" .varchar 16777215,
    longOf "LONGTEXT" .varchar 4294967295,
    varyingOf "VARBINARY" .binary 65535,
    longOf "MEDIUMBLOB" .binary 16777215,
    longOf "LONGBLOB" .binary 4294967295,
    plainOf "DATE" .date,
    (plainOf "TIME(6)" .time).withSynonyms ["time"],
    (plainOf "DATETIME(6)" .datetime).withSynonyms ["datetime", "timestamp"],
    plainOf "JSON" .json]

/-- The mark around names. -/
def backquote : Char := Char.ofNat 96

/-- A text literal, in which quotes and backslashes are doubled. -/
def mysqlText (text : String) : String :=
  enclose '\'' (String.ofList (Text.replaceChar '\\' ['\\', '\\'] text.toList))

/-- A moment plus or minus a number of seconds. -/
def addMicroseconds (sign seconds moment : String) : String :=
  callText "TIMESTAMPADD" ["MICROSECOND", sign ++ "ROUND(" ++ seconds ++ " * 1000000)", moment]

/-- Arithmetic with dates and times; intervals are decimal seconds. -/
def mysqlDates (l : Kind × String) (op : Arithmetic) (r : Kind × String) :
    Option String :=
  match l.1, op, r.1 with
  | .datetime, .add, .interval => some (addMicroseconds "" r.2 l.2)
  | .datetime, .sub, .interval => some (addMicroseconds "-" r.2 l.2)
  | .interval, .add, .datetime => some (addMicroseconds "" l.2 r.2)
  | .date, .add, .interval => some (callText "DATE" [addMicroseconds "" r.2 l.2])
  | .date, .sub, .interval => some (callText "DATE" [addMicroseconds "-" r.2 l.2])
  | .interval, .add, .date => some (callText "DATE" [addMicroseconds "" l.2 r.2])
  | .datetime, .sub, .datetime =>
      some ("(" ++ callText "TIMESTAMPDIFF" ["MICROSECOND", r.2, l.2] ++ " / 1000000)")
  | .date, .sub, .date => some ("(" ++ callText "DATEDIFF" [l.2, r.2] ++ " * 86400)")
  | _, _, _ => none

/-- The query for the columns of a table. -/
def mysqlColumnsQuery (table : String) : String :=
  "SELECT column_name, column_type, character_maximum_length, numeric_precision, " ++
  "numeric_scale, CASE WHEN column_key = 'PRI' THEN 1 ELSE 0 END, column_default, " ++
  "CASE WHEN extra LIKE '%auto_increment%' THEN 1 ELSE 0 END " ++
  "FROM information_schema.columns " ++
  "WHERE table_schema = DATABASE() AND table_name = " ++ mysqlText table ++
  " ORDER BY ordinal_position"

/-- The query for the indices of a table. -/
def mysqlIndicesQuery (table : String) : String :=
  "SELECT index_name, column_name, CASE WHEN non_unique = 0 THEN 1 ELSE 0 END " ++
  "FROM information_schema.statistics " ++
  "WHERE table_schema = DATABASE() AND table_name = " ++ mysqlText table ++
  " AND index_name <> 'PRIMARY' ORDER BY index_name, seq_in_index"

/-- A LIKE test; bytes are compared where case counts. -/
def mysqlLike (expr pattern : String) (ignoreCase : Bool) : String :=
  let escape := mysqlText escapeText
  if ignoreCase then
    spaced ["LOWER(" ++ expr ++ ")", "LIKE", "LOWER(" ++ pattern ++ ")", "ESCAPE", escape]
  else spaced ["CAST(" ++ expr ++ " AS BINARY)", "LIKE", pattern, "ESCAPE", escape]

/-- MySQL. -/
def mysql : Dialect where
  name := "mysql"
  types := mysqlTypes
  quoteName := enclose backquote
  quoteText := mysqlText
  compareText := fun l op r =>
    spaced ["CAST(" ++ l ++ " AS BINARY)", op.sql, "CAST(" ++ r ++ " AS BINARY)"]
  concat := fun l r => callText "CONCAT" [l, r]
  trueDivide := fun l r => Text.bracketed (spaced [l, "/", r])
  dateArithmetic := mysqlDates
  like := fun expr pattern ignoreCase => (mysqlLike expr pattern ignoreCase, true)
  now := "NOW(6)"
  today := "CURDATE()"
  limitClause := limitText (some "18446744073709551615")
  lastKeyQuery := some "SELECT LAST_INSERT_ID()"
  emptyInsert := fun table => "INSERT INTO " ++ table ++ " () VALUES ()"
  generatedClause := some " AUTO_INCREMENT"
  renameTable := fun old new => spaced ["RENAME TABLE", enclose backquote old, "TO", enclose backquote new]
  dropIndex := fun index table => spaced ["DROP INDEX", index, "ON", enclose backquote table]
  tablesQuery :=
    "SELECT table_name FROM information_schema.tables " ++
    "WHERE table_schema = DATABASE() AND table_type = 'BASE TABLE' " ++
    "ORDER BY table_name"
  columnsQuery := mysqlColumnsQuery
  indicesQuery := fun table => some (mysqlIndicesQuery table)

end RowQuery.Dialect
