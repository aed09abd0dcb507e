import RowQuery.Schema
import RowQuery.SchemaFile
import RowQuery.Settings

/-!
# The command line

The command `ddl` prints the statements that create the tables of a schema file.
They are found by creating the tables on recorded connections, so that a script is
exactly what a database would be told.
-/

namespace RowQuery

/-! ## Creation scripts -/

/-- A database of recorded connections as settings describe it. -/
def Settings.database (s : Settings) (dialect : BuiltinDialect) : Database :=
  { workspace := { dialect := dialect.dialect, functions := .standard },
    memo := .ofCapacity s.memoCapacity, strict := s.strict }

namespace Schema

/-- Add tables and create them; the result is what the database was told. -/
def creationSession (tables : List Table) : Session (List String) := do
  tables.forM addTable
  createAll
  Session.onDatabase Database.takeRecord

end Schema

namespace SchemaFile

/-- The statements that create the tables of a file in a dialect. -/
def creationScript (f : SchemaFile) (settings : Settings) (dialect : BuiltinDialect) :
    Outcome (List String) := do
  let tables ← f.toTables dialect.dialect
  ((Schema.creationSession tables).run { database := settings.database dialect }).1

def scriptText (statements : List String) : String :=
  String.join (statements.map fun sql => sql ++ ";\n")

end SchemaFile

/-! ## Arguments -/

/-- What a command line asks for. -/
structure CommandLine where
  /-- The file with the settings, if not the defaults. -/
  settingsPath : Option String := none
  /-- The file with the tables. -/
  schemaPath : String := ""
  /-- The dialect, if not that of the settings. -/
  dialect : Option BuiltinDialect := none

namespace CommandLine

/-- How the command is used. -/
def usage : String :=
  "usage: ddl [--config FILE] [--dialect generic|postgres|sqlite|mysql] SCHEMA"

/-- Read the arguments behind the name of the command. -/
def readOptions (c : CommandLine) : List String → Except String CommandLine
  | [] => if c.schemaPath = "" then .error usage else .ok c
  | "--config" :: path :: rest => readOptions { c with settingsPath := some path } rest
  | "--dialect" :: name :: rest => do
      let dialect ← BuiltinDialect.ofText name
      readOptions { c with dialect := some dialect } rest
  | argument :: rest =>
      if c.schemaPath = "" && !argument.startsWith "-" then
        readOptions { c with schemaPath := argument } rest
      else .error usage

def read (arguments : List String) : Except String CommandLine :=
  match arguments with
  | "ddl" :: rest => readOptions {} rest
  | "--config" :: path :: "ddl" :: rest => readOptions { settingsPath := some path } rest
  | _ => .error usage

/-- The settings in the text of a file, or the defaults without a file. -/
def settings (text : Option String) : Except String Settings :=
  match text with
  | none => .ok {}
  | some text =>
      match Settings.read? text with
      | some settings => .ok settings
      | none => .error "Failed to load settings"

/-- The script for the text of a schema file. -/
def script (c : CommandLine) (settings : Settings) (text : String) : Except String String :=
  match SchemaFile.read? text with
  | none => .error ("Failed to read " ++ c.schemaPath)
  | some file =>
      match file.creationScript settings (c.dialect.getD settings.dialect) with
      | .ok statements => .ok (SchemaFile.scriptText statements)
      | .error cause => .error ("Invalid schema in " ++ c.schemaPath ++ ": " ++ cause.message)

end CommandLine

end RowQuery
