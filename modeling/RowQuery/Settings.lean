import RowQuery.Dialect.Builtin
import RowQuery.Fault
import RowQuery.Memo
import RowQuery.Text.Pieces
import RowQuery.Toml.Reading
import RowQuery.Toml.Record

/-!
# Settings

The settings of a program that works with databases, and how to reach a database
server: the connection string consists of pairs of a keyword and a value.  Values
with quotation marks have them and the backslashes escaped.
-/

/-! ## Connection profiles -/

namespace RowQuery

open RowQuery.Number

/-- How far a connection is secured. -/
inductive Security where
  /-- Not encrypted. -/
  | disable
  /-- Encrypted if the server can. -/
  | prefer
  /-- Encrypted. -/
  | require
  /-- Encrypted, with a certificate of a trusted authority. -/
  | verifyAuthority
  /-- Encrypted, with a certificate for the host itself. -/
  | verifyHost
  deriving DecidableEq

namespace Security

/-- The word in connection strings. -/
def keyword : Security → String
  | disable => "disable"
  | prefer => "prefer"
  | require => "require"
  | verifyAuthority => "verify-ca"
  | verifyHost => "verify-full"

/-- The word in settings. -/
def setting : Security → String
  | disable => "Disable"
  | prefer => "Prefer"
  | require => "Require"
  | verifyAuthority => "VerifyCa"
  | verifyHost => "VerifyFull"

def all : List Security :=
  [disable, prefer, require, verifyAuthority, verifyHost]

/-- The security that settings name. -/
def ofSetting? (name : String) : Option Security :=
  all.find? fun s => s.setting = name

end Security

/-- How to reach a database server. -/
structure ConnectionProfile where
  name : String
  host : String
  port : Nat
  database : String
  user : String
  password : String := ""
  security : Security := .prefer
  /-- Accept certificates of unknown authorities where none is demanded. -/
  acceptsAnyCertificate : Bool := false
  /-- The file with certificates of authorities. -/
  authorities : Option String := none
  poolSize : Nat := 8

namespace ConnectionProfile

/-- A character of a quoted value. -/
def escapeChar (c : Char) : List Char :=
  if c = '\\' ∨ c = '\'' then ['\\', c] else [c]

def quotedValue (value : String) : String :=
  String.ofList ('\'' :: value.toList.flatMap escapeChar ++ ['\''])

def connectionString (p : ConnectionProfile) : String :=
  Text.join " " [
    "host=" ++ quotedValue p.host,
    "port=" ++ natText p.port,
    "dbname=" ++ quotedValue p.database,
    "user=" ++ quotedValue p.user,
    "password=" ++ quotedValue p.password,
    "sslmode=" ++ p.security.keyword,
    "connect_timeout=10"]

/-- The server and the user in short. -/
def displayText (p : ConnectionProfile) : String :=
  p.user ++ "@" ++ p.host ++ ":" ++ natText p.port ++ "/" ++ p.database

def read? (value : Toml) : Option ConnectionProfile := do
  let r ← value.record?
  return {
    name := ← r.required "name" 0 Toml.text?
    host := ← r.required "host" 1 Toml.text?
    port := ← r.required "port" 2 (Toml.natural? 0xFFFF)
    database := ← r.required "database" 3 Toml.text?
    user := ← r.required "username" 4 Toml.text?
    password := ← r.withDefault "password" 5 Toml.text? ""
    security := ← r.withDefault "ssl_mode" 6
      (fun value => value.choice?.bind Security.ofSetting?) .prefer
    acceptsAnyCertificate := ← r.withDefault "accept_invalid_certs" 7 Toml.truth? false
    authorities := ← r.withDefault "ca_cert_path" 8 (fun value => value.text?.map some) none
    poolSize := ← r.withDefault "pool_size" 9 (Toml.natural? Number.wordMax) 8 }

end ConnectionProfile

/-! ## Programs -/

/-- The settings of a program. -/
structure Settings where
  dialect : BuiltinDialect := .ansi
  memoCapacity : Nat := Memo.defaultCapacity
  /-- Refuse restrictions without exact SQL form. -/
  strict : Bool := false
  connections : List ConnectionProfile := []

namespace Settings

def read? (text : String) : Option Settings := do
  let members ← Toml.read? text
  let r := Toml.Record.named members
  return {
    dialect := ← r.withDefault "dialect" 0
      (fun value => value.choice?.bind BuiltinDialect.ofSetting?) .ansi
    memoCapacity := ← r.withDefault "cache_capacity" 1 (Toml.natural? Number.wordMax)
      Memo.defaultCapacity
    strict := ← r.withDefault "strict" 2 Toml.truth? false
    connections := ← r.withDefault "connections" 3 (Toml.list? ConnectionProfile.read?) [] }

/-- The connection of a name, or the first one. -/
def connection (s : Settings) : Option String → Outcome ConnectionProfile
  | some name =>
      match s.connections.find? fun c => c.name = name with
      | some c => .ok c
      | none => .error (.configuration ("no connection named " ++ name))
  | none =>
      match s.connections with
      | c :: _ => .ok c
      | [] => .error (.configuration "no connections configured")

end Settings

end RowQuery
