import RowQuery.Fault
import RowQuery.Query.Write
import RowQuery.Value

/-!
# Databases

Statements run on a connection each, or on that of the transaction while one is
open.  The schema lock and a transaction exclude each other: taking the lock
commits the transaction, and none can begin while the lock is held.

A recorder stands in for a database server.  It keeps a record of the statements
that run on its connections and answers them from a script; a statement without
scripted answer succeeds and touches no rows.
-/

namespace RowQuery

/-! ## Recorded connections -/

/-- What a statement returns. -/
structure Response where
  rows : List (List Cell) := []
  /-- The number of rows touched, if it is reported. -/
  affected : Option Nat := none

namespace Response

/-- The answer of a statement that touches rows. -/
def touching (count : Nat) : Response :=
  { affected := some count }

/-- The first cell of the first row. -/
def scalar? (r : Response) : Option Cell :=
  r.rows.head?.bind List.head?

end Response

/-- A connection, by its number. -/
abbrev Connection := Nat

/-- A statement that ran on a connection. -/
structure Executed where
  connection : Connection
  sql : String
  deriving DecidableEq

/-- A scripted answer to the next statement that starts with a text. -/
structure ScriptedReply where
  start : String
  answer : Outcome Response

/-- The record of a server and the script of its answers. -/
structure Recorder where
  executed : List Executed := []
  script : List ScriptedReply := []
  /-- The number of connections handed out. -/
  acquired : Nat := 0
  /-- The number of connections given back. -/
  released : Nat := 0

namespace Recorder

/-- The connections in use. -/
def outstanding (r : Recorder) : Nat :=
  r.acquired - r.released

/-- The recorder with one more scripted answer. -/
def scripted (r : Recorder) (start : String) (answer : Outcome Response) : Recorder :=
  { r with script := r.script ++ [⟨start, answer⟩] }

/-- The recorder with an empty record. -/
def cleared (r : Recorder) : Recorder :=
  { r with executed := [] }

/-- A scripted answer is for a statement. -/
def ScriptedReply.isFor (sql : String) (reply : ScriptedReply) : Bool :=
  Text.startsWith sql.toList reply.start.toList

/-- Hand out a connection. -/
def acquire (r : Recorder) : Connection × Recorder :=
  (r.acquired, { r with acquired := r.acquired + 1 })

/-- Take a connection back. -/
def release (r : Recorder) : Recorder :=
  { r with released := r.released + 1 }

/-- Run a statement on a connection. -/
def execute (r : Recorder) (connection : Connection) (sql : String) :
    Outcome Response × Recorder :=
  let answer := (r.script.find? (ScriptedReply.isFor sql)).map ScriptedReply.answer
  (answer.getD (.ok (.touching 0)),
    { r with
      executed := r.executed ++ [⟨connection, sql⟩]
      script := r.script.eraseP (ScriptedReply.isFor sql) })

/-- Run statements on a connection up to the first that fails. -/
def executeAll (connection : Connection) :
    List String → Recorder → Outcome (List Response) × Recorder
  | [], r => (.ok [], r)
  | sql :: sqls, r =>
      match r.execute connection sql with
      | (.error cause, r) => (.error cause, r)
      | (.ok response, r) =>
          let (rest, r) := executeAll connection sqls r
          (rest.map (response :: ·), r)

end Recorder

/-! ## Databases -/

/-- A database with its connections. -/
structure Database where
  workspace : Workspace
  memo : Memo := .ofCapacity Memo.defaultCapacity
  /-- Refuse restrictions without exact SQL form. -/
  strict : Bool := false
  recorder : Recorder := {}
  /-- The connection of the open transaction. -/
  transaction : Option Connection := none
  schemaLocked : Bool := false

/-- A computation on a database.  A fault keeps what happened before it. -/
abbrev Action := ExceptT Fault (StateM Database)

namespace Action

/-- Write a statement with the memo of the database. -/
def write {α : Type} (compile : Workspace → Memoized α) : Action α := fun db =>
  let (outcome, memo) := (compile db.workspace).run (some db.memo)
  (outcome, { db with memo := memo.getD db.memo })

/-- Do something with the connections. -/
def withRecorder {α : Type} (step : Recorder → Outcome α × Recorder) : Action α := fun db =>
  let (outcome, recorder) := step db.recorder
  (outcome, { db with recorder })

/-- Run an action and keep its fault as a result. -/
def attempt {α : Type} (action : Action α) : Action (Outcome α) := fun db =>
  let (outcome, db) := action.run db
  (.ok outcome, db)

/-- Hand out a connection. -/
def acquire : Action Connection :=
  withRecorder fun r => let (connection, r) := r.acquire; (.ok connection, r)

/-- Take a connection back. -/
def release : Action Unit :=
  withRecorder fun r => (.ok (), r.release)

/-- The dialect of the database. -/
def dialect : Action Dialect :=
  return (← get).workspace.dialect

end Action

namespace Database

/-- Script the answer to the next statement that starts with a text. -/
def script (start : String) (answer : Outcome Response) : Action Unit :=
  modify fun db => { db with recorder := db.recorder.scripted start answer }

/-- Take the statements that ran out of the record. -/
def takeRecord : Action (List String) := do
  let recorder := (← get).recorder
  modify fun db => { db with recorder := recorder.cleared }
  return recorder.executed.map Executed.sql

/-- Run statements in order on one connection: that of the transaction, or else a
new one. -/
def executeAll (statements : List String) : Action (List Response) := do
  match (← get).transaction with
  | some connection => Action.withRecorder (Recorder.executeAll connection statements)
  | none =>
      let connection ← Action.acquire
      let outcome ← Action.attempt
        (Action.withRecorder (Recorder.executeAll connection statements))
      Action.release
      outcome

/-- Run a statement. -/
def execute (sql : String) : Action Response := do
  let responses ← executeAll [sql]
  match responses.getLast? with
  | some response => return response
  | none => throw (.connection ("no result for " ++ sql))

def beginTransaction : Action Unit := do
  if (← get).schemaLocked then
    throw (.locked "schema change in progress; cannot begin a transaction")
  if (← get).transaction.isSome then
    throw (.misuse "a transaction is already open")
  let connection ← Action.acquire
  match ← Action.attempt (Action.withRecorder fun r => r.execute connection "BEGIN") with
  | .ok _ => modify fun db => { db with transaction := some connection }
  | .error cause =>
      Action.release
      throw cause

/-- End a transaction that was on a connection. -/
def close (connection : Connection) (keyword : String) : Action Unit := do
  let outcome ← Action.attempt (Action.withRecorder fun r => r.execute connection keyword)
  Action.release
  let _ ← outcome

/-- Take the connection of the transaction, which is over then. -/
def takeTransaction : Action (Option Connection) := do
  let taken := (← get).transaction
  modify fun db => { db with transaction := none }
  return taken

/-- End the transaction. -/
def finish (keyword : String) : Action Unit := do
  match ← takeTransaction with
  | some connection => close connection keyword
  | none => throw (.misuse (keyword ++ " without a transaction"))

/-- Commit the transaction. -/
def commit : Action Unit :=
  finish "COMMIT"

/-- Roll the transaction back. -/
def rollback : Action Unit :=
  finish "ROLLBACK"

/-- Give the schema lock back. -/
def unlockSchema : Action Unit :=
  modify fun db => { db with schemaLocked := false }

/-- Take the schema lock and commit the transaction.  If that fails the lock is
given back. -/
def lockSchema : Action Unit := do
  if (← get).schemaLocked then throw (.locked "schema lock already held")
  modify fun db => { db with schemaLocked := true }
  if let some connection ← takeTransaction then
    match ← Action.attempt (close connection "COMMIT") with
    | .ok _ => return ()
    | .error cause =>
        unlockSchema
        throw cause

def forgetCompiled : Action Unit :=
  modify fun db => { db with memo := db.memo.clear }

/-- Run statements that change the schema under the schema lock.  Compiled
restrictions are forgotten afterwards, since they may name what changed. -/
def changeSchema (statements : List String) : Action Unit := do
  lockSchema
  let outcome ← Action.attempt (executeAll statements)
  match outcome with
  | .ok _ =>
      forgetCompiled
      unlockSchema
  | .error cause =>
      unlockSchema
      throw cause

def selectStatement (q : Query) : Action CompiledQuery := do
  let strict := (← get).strict
  Action.write fun w => w.select strict q

/-- The projection selects every column. -/
def selectsAll : Projection → Bool
  | .all => true
  | _ => false

/-- The rows that a restriction accepts. -/
def refilter (functions : FunctionLibrary) (e : Lambda) (q : Query) (compiled : CompiledQuery) :
    List Row → Outcome (List Row)
  | [] => .ok []
  | row :: rows => do
      let accepted ← e.matches?
        { rows := compiled.splitRow row q.relation.size, arguments := q.arguments, functions }
      let rest ← refilter functions e q compiled rows
      .ok (if accepted then row :: rest else rest)

/-- The rows of a query.  Rows of a statement that is not exact are filtered
again. -/
def select (q : Query) : Action (List Row) := do
  let compiled ← selectStatement q
  if !compiled.exact && !selectsAll q.projection then
    throw (.inexact
      "an imperfect restriction needs every column selected to re-filter rows")
  let response ← execute compiled.sql
  let rows ← liftM (response.rows.mapM compiled.decodeRow)
  match q.restriction with
  | some e =>
      if compiled.exact then return rows
      else liftM (refilter (← get).workspace.functions e q compiled rows)
  | none => return rows

end Database

end RowQuery
