import RowQuery.Calendar.Seconds
import RowQuery.Dialect.Ansi

/-!
# PostgreSQL

Native intervals and documents, sequences behind generated keys, and INSERT that
returns what it stored.
-/

namespace RowQuery.Dialect

open RowQuery.ColumnType

/-- The types of PostgreSQL. -/
def postgresTypes : TypeCatalog where
  name := "postgres"
  registered := [
    (plainOf "BOOLEAN" .boolean).withSynonyms ["bool"],
    (integerOf "SMALLINT" 2).withSynonyms ["int2", "smallserial"],
    (integerOf "INTEGER" 4).withSynonyms ["int", "int4", "serial"],
    (integerOf "BIGINT" 8).withSynonyms ["int8", "bigserial"],
    (floatingOf "REAL" 24).withSynonyms ["float4"],
    (floatingOf "DOUBLE PRECISION" 53).withSynonyms ["float8", "float"],
    (decimalOf "NUMERIC" 1000 1000).withSynonyms ["decimal"],
    (varyingOf "VARCHAR" .varchar 10485760).withSynonyms ["character varying"],
    longOf "TEXT" .varchar 0x40000000,
    longOf "BYTEA" .binary 0x40000000,
    plainOf "DATE" .date,
    (plainOf "TIME" .time).withSynonyms ["time without time zone"],
    (plainOf "TIMESTAMP" .datetime).withSynonyms
      ["timestamp without time zone", "timestamp with time zone", "timestamptz"],
    plainOf "INTERVAL" .interval,
    (plainOf "JSONB" .json).withSynonyms ["json"]]

/-- Arithmetic with dates, times and intervals.  Days between two dates are a
number and become an interval; a date plus an interval is a timestamp and becomes
a date. -/
def postgresDates (l : Kind × String) (op : Arithmetic) (r : Kind × String) :
    Option String :=
  let plain := Text.bracketed (spaced [l.2, op.symbol, r.2])
  match l.1, op, r.1 with
  | .datetime, .add, .interval | .datetime, .sub, .interval
  | .interval, .add, .datetime | .datetime, .sub, .datetime
  | .interval, .add, .interval | .interval, .sub, .interval
  | .interval, .mul, .int | .interval, .mul, .float
  | .interval, .div, .int | .interval, .div, .float
  | .int, .mul, .interval | .float, .mul, .interval => some plain
  | .date, .add, .interval | .date, .sub, .interval | .interval, .add, .date =>
      some ("CAST(" ++ plain ++ " AS DATE)")
  | .date, .sub, .date =>
      some ("((" ++ l.2 ++ " - " ++ r.2 ++ ") * INTERVAL '1 day')")
  | .interval, .div, .interval =>
      some ("(EXTRACT(EPOCH FROM " ++ l.2 ++ ") / EXTRACT(EPOCH FROM " ++ r.2 ++ "))")
  | _, _, _ => none

/-- The query for the columns of a table. -/
def postgresColumnsQuery (table : String) : String :=
  "SELECT c.column_name, c.data_type, c.character_maximum_length, " ++
  "c.numeric_precision, c.numeric_scale, " ++
  "CASE WHEN kcu.column_name IS NOT NULL THEN 1 ELSE 0 END, " ++
  "c.column_default, " ++
  "CASE WHEN c.column_default LIKE 'nextval(%' THEN 1 ELSE 0 END " ++
  "FROM information_schema.columns c " ++
  "LEFT JOIN information_schema.table_constraints tc " ++
  "ON tc.table_schema = c.table_schema " ++
  "AND tc.table_name = c.table_name " ++
  "AND tc.constraint_type = 'PRIMARY KEY' " ++
  "LEFT JOIN information_schema.key_column_usage kcu " ++
  "ON kcu.constraint_name = tc.constraint_name " ++
  "AND kcu.table_schema = tc.table_schema " ++
  "AND kcu.column_name = c.column_name " ++
  "WHERE c.table_schema = current_schema() AND c.table_name = " ++
  enclose '\'' table ++ " ORDER BY c.ordinal_position"

/-- The query for the indices of a table. -/
def postgresIndicesQuery (table : String) : String :=
  "SELECT i.relname, a.attname, CASE WHEN ix.indisunique THEN 1 ELSE 0 END " ++
  "FROM pg_catalog.pg_index ix " ++
  "JOIN pg_catalog.pg_class t ON t.oid = ix.indrelid " ++
  "JOIN pg_catalog.pg_class i ON i.oid = ix.indexrelid " ++
  "JOIN pg_catalog.pg_namespace n ON n.oid = t.relnamespace " ++
  "JOIN pg_catalog.pg_attribute a ON a.attrelid = t.oid AND a.attnum = ANY(ix.indkey) " ++
  "WHERE n.nspname = current_schema() AND t.relname = " ++ enclose '\'' table ++
  " AND NOT ix.indisprimary ORDER BY i.relname"

def postgres : Dialect where
  name := "postgres"
  types := postgresTypes
  bytesLiteral := fun bytes => "'\\x" ++ String.ofList (Sql.hexEncode bytes) ++ "'::bytea"
  intervalLiteral := fun i => some ("INTERVAL '" ++ i.seconds.toText ++ " seconds'")
  jsonLiteral := fun text => enclose '\'' text ++ "::jsonb"
  dateArithmetic := postgresDates
  like := fun expr pattern ignoreCase =>
    (spaced [expr, if ignoreCase then "ILIKE" else "LIKE", pattern, "ESCAPE",
      enclose '\'' escapeText], true)
  now := "LOCALTIMESTAMP"
  extract := fun part expr =>
    let field := "EXTRACT(" ++ part.keyword ++ " FROM " ++ expr ++ ")"
    let field := if part = .second then callText "FLOOR" [field] else field
    "CAST(" ++ field ++ " AS INTEGER)"
  hasReturning := true
  reservedNames := ["oid", "tableoid", "xmin", "xmax", "cmin", "cmax", "ctid"]
  sequenceName := fun table column => some (table ++ "_" ++ column ++ "_seq")
  generatedClause := none
  tablesQuery :=
    "SELECT c.relname " ++
    "FROM pg_catalog.pg_class c " ++
    "JOIN pg_catalog.pg_namespace n ON n.oid = c.relnamespace " ++
    "WHERE n.nspname = current_schema() AND c.relkind IN ('r', 'p') " ++
    "ORDER BY c.relname"
  columnsQuery := postgresColumnsQuery
  indicesQuery := fun table => some (postgresIndicesQuery table)

end RowQuery.Dialect
