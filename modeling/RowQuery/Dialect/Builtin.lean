import RowQuery.Dialect.Mysql
import RowQuery.Dialect.Postgres
import RowQuery.Dialect.Sqlite

/-!
# The built-in dialects

Their names in settings and on the command line.
-/

namespace RowQuery

/-- The dialects that come with the library. -/
inductive BuiltinDialect where
  | ansi
  | postgres
  | sqlite
  | mysql
  deriving DecidableEq

namespace BuiltinDialect

/-- The dialect itself. -/
def dialect : BuiltinDialect → Dialect
  | ansi => .ansi
  | postgres => .postgres
  | sqlite => .sqlite
  | mysql => .mysql

/-- The usual name of a dialect. -/
def name : BuiltinDialect → String
  | ansi => "generic"
  | postgres => "postgres"
  | sqlite => "sqlite"
  | mysql => "mysql"

def all : List BuiltinDialect := [ansi, postgres, sqlite, mysql]

/-- The dialect that a text names, in any case, or what is wrong with it. -/
def ofText (text : String) : Except String BuiltinDialect :=
  let name := Text.asciiLower text
  if name = "generic" ∨ name = "ansi" then .ok ansi
  else if name = "postgres" ∨ name = "postgresql" ∨ name = "pg" then .ok postgres
  else if name = "sqlite" ∨ name = "sqlite3" then .ok sqlite
  else if name = "mysql" ∨ name = "mariadb" then .ok mysql
  else .error ("unknown dialect: " ++ name)

/-- The dialect that settings name. -/
def ofSetting? (name : String) : Option BuiltinDialect :=
  if name = "generic" then some ansi
  else if name = "postgres" ∨ name = "postgresql" then some postgres
  else if name = "sqlite" then some sqlite
  else if name = "mysql" ∨ name = "mariadb" then some mysql
  else none

end BuiltinDialect

end RowQuery
