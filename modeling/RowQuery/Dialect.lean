import RowQuery.Sql.Literal
import RowQuery.Sql.Operator
import RowQuery.TypeCatalog

/-!
# Dialects

All in which database systems differ: quoting, literals, the spelling of
operators and functions, limits, declarations and the queries on the catalog.
The defaults are plain ANSI SQL, and a dialect overrides what it has to.
-/

namespace RowQuery

open RowQuery.Calendar RowQuery.Number RowQuery.Sql

/-- Where a row limit stands. -/
inductive LimitStyle where
  /-- Behind the statement. -/
  | trailing
  /-- Behind SELECT as `TOP`; rows cannot be skipped. -/
  | top
  deriving DecidableEq

/-- The fields of dates and times. -/
inductive DatePart where
  | year
  | month
  | day
  | hour
  | minute
  | second
  deriving DecidableEq

namespace DatePart

/-- The field in SQL. -/
def keyword : DatePart → String
  | year => "YEAR"
  | month => "MONTH"
  | day => "DAY"
  | hour => "HOUR"
  | minute => "MINUTE"
  | second => "SECOND"

/-- The field of a name. -/
def ofName? : String → Option DatePart
  | "year" => some year
  | "month" => some month
  | "day" => some day
  | "hour" => some hour
  | "minute" => some minute
  | "second" => some second
  | _ => none

end DatePart

/-- A text between quotation marks in which the closing mark is doubled. -/
def enclose (mark : Char) (text : String) : String :=
  String.ofList (mark :: Text.replaceChar mark [mark, mark] text.toList ++ [mark])

/-- Keywords and operands with blanks between them. -/
def spaced (words : List String) : String :=
  Text.join " " words

def callText (function : String) (arguments : List String) : String :=
  function ++ "(" ++ Text.join ", " arguments ++ ")"

/-- The escape character of patterns as a text. -/
def escapeText : String := String.ofList [likeEscape]

/-- The limit and the offset behind a statement, where an offset alone may need
a limit of its own. -/
def limitText (unlimited : Option String) : Option Nat → Option Nat → Option String
  | some limit, some offset => some (spaced ["LIMIT", natText limit, "OFFSET", natText offset])
  | some limit, none => some (spaced ["LIMIT", natText limit])
  | none, some offset =>
      match unlimited with
      | some limit => some (spaced ["LIMIT", limit, "OFFSET", natText offset])
      | none => some (spaced ["OFFSET", natText offset])
  | none, none => none

/-- How a database system writes SQL. -/
structure Dialect where
  name : String
  types : TypeCatalog
  quoteName : String → String := enclose '"'
  quoteText : String → String := enclose '\''
  /-- A truth value as it is stored. -/
  truthLiteral : Bool → String := fun b => if b then "TRUE" else "FALSE"
  /-- A truth value as a condition. -/
  truthClause : Bool → String := truthLiteral
  bytesLiteral : List UInt8 → String :=
    fun bytes => "X'" ++ String.ofList (hexEncode bytes) ++ "'"
  dateLiteral : Date → String := fun date => "DATE '" ++ date.toText ++ "'"
  timeLiteral : Clock → String := fun time => "TIME '" ++ time.toText ++ "'"
  datetimeLiteral : Moment → String :=
    fun moment => "TIMESTAMP '" ++ moment.toText " " ++ "'"
  /-- An interval, if there are intervals. -/
  intervalLiteral : Interval → Option String := fun _ => none
  /-- The text of a document for a column of documents. -/
  jsonLiteral : String → String := quoteText
  compare : String → Comparison → String → String :=
    fun l op r => spaced [l, op.sql, r]
  /-- Comparison of texts that tells letters apart by case. -/
  compareText : String → Comparison → String → String := compare
  concat : String → String → String := fun l r => Text.bracketed (spaced [l, "||", r])
  arithmetic : String → Arithmetic → String → String :=
    fun l op r => Text.bracketed (spaced [l, op.symbol, r])
  /-- The exact quotient of two integers. -/
  trueDivide : String → String → String :=
    fun l r => Text.bracketed (spaced ["CAST(" ++ l ++ " AS DOUBLE PRECISION)", "/", r])
  /-- The remainder of two integers with the sign of the divisor. -/
  floorModulo : String → String → String := fun l r =>
    Text.bracketed (spaced [
      Text.bracketed (spaced [Text.bracketed (spaced [l, "%", r]), "+", r]), "%", r])
  /-- Arithmetic with dates, times and intervals, if it has an exact form. -/
  dateArithmetic : Kind × String → Arithmetic → Kind × String → Option String :=
    fun _ _ _ => none
  /-- Letters beyond ASCII have a case too. -/
  foldsUnicode : Bool := true
  /-- A LIKE test of an expression with a pattern, with or without regard to
  case, and whether it accepts no text too many. -/
  like : String → String → Bool → String × Bool := fun expr pattern ignoreCase =>
    if ignoreCase then
      (spaced ["LOWER(" ++ expr ++ ")", "LIKE", "LOWER(" ++ pattern ++ ")", "ESCAPE",
        quoteText escapeText], true)
    else (spaced [expr, "LIKE", pattern, "ESCAPE", quoteText escapeText], true)
  /-- The pattern that matches exactly the value of an expression. -/
  escapePattern : String → String := fun expr =>
    let replace (text old : String) : String :=
      callText "REPLACE" [text, quoteText old, quoteText (escapeText ++ old)]
    replace (replace (replace expr escapeText) "%") "_"
  lower : String → String := fun expr => callText "LOWER" [expr]
  upper : String → String := fun expr => callText "UPPER" [expr]
  length : String → String := fun expr => callText "CHAR_LENGTH" [expr]
  now : String := "CURRENT_TIMESTAMP"
  today : String := "CURRENT_DATE"
  extract : DatePart → String → String := fun part expr =>
    let field := "EXTRACT(" ++ part.keyword ++ " FROM " ++ expr ++ ")"
    if part = .second then callText "FLOOR" [field] else field
  limitStyle : LimitStyle := .trailing
  limitClause : Option Nat → Option Nat → Option String := limitText none
  hasRightJoin : Bool := true
  /-- INSERT can return the stored row. -/
  hasReturning : Bool := false
  /-- The query for the key that the last INSERT generated. -/
  lastKeyQuery : Option String := none
  /-- INSERT of a row of defaults into a quoted table. -/
  emptyInsert : String → String := fun table => "INSERT INTO " ++ table ++ " DEFAULT VALUES"
  /-- Column names that the database keeps for itself. -/
  reservedNames : List String := []
  /-- Key columns need an index of their own. -/
  indexesKeys : Bool := false
  /-- The sequence behind a generated key of a table and a column. -/
  sequenceName : String → String → Option String := fun _ _ => none
  /-- What marks a generated key that has no sequence. -/
  generatedClause : Option String := some " GENERATED BY DEFAULT AS IDENTITY"
  /-- A single generated key is declared with its column, and generated keys take
  no other declaration. -/
  declaresKeyInline : Bool := false
  renameTable : String → String → String := fun old new =>
    spaced ["ALTER TABLE", quoteName old, "RENAME TO", quoteName new]
  /-- Drop the index with a quoted name on a table. -/
  dropIndex : String → String → String := fun index _ => "DROP INDEX " ++ index
  tablesQuery : String :=
    "SELECT table_name FROM information_schema.tables " ++
    "WHERE table_schema = CURRENT_SCHEMA AND table_type = 'BASE TABLE' " ++
    "ORDER BY table_name"
  /-- The query for the columns of a table: name, type, length, digits, places,
  key or not, default, generated or not. -/
  columnsQuery : String → String := fun table =>
    "SELECT column_name, data_type, character_maximum_length, numeric_precision, " ++
    "numeric_scale, 0, column_default, 0 " ++
    "FROM information_schema.columns " ++
    "WHERE table_schema = CURRENT_SCHEMA AND table_name = " ++ quoteText table ++
    " ORDER BY ordinal_position"
  /-- The query for the indices of a table, if there is one: index name, column
  name, unique or not. -/
  indicesQuery : String → Option String := fun _ => none

namespace Dialect

variable (d : Dialect)

def createSequence (name : String) : String :=
  "CREATE SEQUENCE " ++ d.quoteName name

def dropSequence (name : String) : String :=
  "DROP SEQUENCE " ++ d.quoteName name

/-- The column default that draws from a sequence. -/
def sequenceDefault (name : String) : String :=
  callText "nextval" [d.quoteText (d.quoteName name)]

def createView (name select : String) : String :=
  spaced ["CREATE VIEW", d.quoteName name, "AS", select]

def dropView (name : String) : String :=
  "DROP VIEW " ++ d.quoteName name

end Dialect

end RowQuery
