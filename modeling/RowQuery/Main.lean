import RowQuery.CommandLine

/-!
# The program

Reads the files that the command line names and prints the script for them.
-/

open RowQuery

/-- The script that a command line asks for. -/
def runCommand (arguments : List String) : IO (Except String String) := do
  match CommandLine.read arguments with
  | .error message => return .error message
  | .ok command =>
      let settingsText ← command.settingsPath.mapM fun path => IO.FS.readFile path
      let schemaText ← IO.FS.readFile command.schemaPath
      return do
        let settings ← CommandLine.settings settingsText
        command.script settings schemaText

/-- Print the script, or what is wrong. -/
def main (arguments : List String) : IO UInt32 := do
  match ← runCommand arguments with
  | .ok script =>
      IO.print script
      return 0
  | .error message =>
      IO.eprintln message
      return 1
