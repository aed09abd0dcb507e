import RowQuery.Database
import RowQuery.Proofs.Steps

/-!
# What the operations of a database do

Each operation is run once here: its outcome, and the database it leaves.
-/

namespace RowQuery

namespace Action

variable {α β : Type} (db : Database)

theorem run_get_bind (rest : Database → Action β) : (get >>= rest).run db = (rest db).run db :=
  rfl

theorem run_modify_bind (f : Database → Database) (rest : PUnit → Action β) :
    (modify f >>= rest).run db = (rest ⟨⟩).run (f db) :=
  rfl

theorem run_attempt_bind (action : Action α) (rest : Outcome α → Action β) :
    (attempt action >>= rest).run db = (rest (action.run db).1).run (action.run db).2 :=
  rfl

theorem run_acquire_bind (rest : Connection → Action β) :
    (acquire >>= rest).run db =
      (rest db.recorder.acquired).run { db with recorder := db.recorder.acquire.2 } :=
  rfl

theorem run_withRecorder (step : Recorder → Outcome α × Recorder) :
    (withRecorder step).run db =
      ((step db.recorder).1, { db with recorder := (step db.recorder).2 }) :=
  rfl

theorem run_forget (action : Action α) :
    (do let _ ← action : Action Unit).run db =
      ((action.run db).1.map fun _ => (), (action.run db).2) := by
  rw [ExceptT.run_bind_eq]
  cases action.run db with
  | mk outcome after => cases outcome <;> rfl

end Action

/-- Statements ran, and connections were handed out and taken back. -/
structure Recorder.Went (before after : Recorder) (taken returned : Nat) (ran : List Executed) :
    Prop where
  executed : after.executed = before.executed ++ ran
  acquired : after.acquired = before.acquired + taken
  released : after.released = before.released + returned

theorem Recorder.Went.self (r : Recorder) : r.Went r 0 0 [] :=
  ⟨(List.append_nil _).symm, rfl, rfl⟩

/-- Statements run up to the first that fails, if one does. -/
theorem Recorder.went_executeAll (connection : Connection) (statements : List String)
    (r : Recorder) :
    ∃ n, r.Went (executeAll connection statements r).2 0 0
        ((statements.take (n + 1)).map (Executed.mk connection)) ∧
      ((executeAll connection statements r).1.isOk = true → statements.length ≤ n + 1) := by
  induction statements generalizing r with
  | nil => exact ⟨0, ⟨by simp [executeAll], rfl, rfl⟩, by simp⟩
  | cons sql sqls ih =>
      cases first : r.execute connection sql with
      | mk outcome between =>
          obtain rfl : (r.execute connection sql).2 = between := by rw [first]
          rw [executeAll, first]
          cases outcome with
          | error fault => exact ⟨0, ⟨by simp [execute], rfl, rfl⟩, nofun⟩
          | ok response =>
              obtain ⟨n, went, all⟩ := ih (r.execute connection sql).2
              refine ⟨n + 1, ⟨?_, went.acquired, went.released⟩, fun succeeded => ?_⟩
              · rw [went.executed]
                simp [execute]
              · refine Nat.succ_le_succ (all ?_)
                dsimp only at succeeded ⊢
                cases outcome : (executeAll connection sqls (r.execute connection sql).2).1 with
                | ok responses => rfl
                | error fault => simp [outcome, Except.map, Except.isOk, Except.toBool] at succeeded

namespace Database

open RowQuery.Action

variable {db : Database}

theorem executeAll_run_of_some {c : Connection} (slot : db.transaction = some c)
    (statements : List String) :
    (executeAll statements).run db =
      let ran := db.recorder.executeAll c statements
      (ran.1, { db with recorder := ran.2 }) := by
  simp only [executeAll, run_get_bind, slot, run_withRecorder]

theorem executeAll_run_of_none (slot : db.transaction = none) (statements : List String) :
    (executeAll statements).run db =
      let ran := db.recorder.acquire.2.executeAll db.recorder.acquired statements
      (ran.1, { db with recorder := ran.2.release }) := by
  simp only [executeAll, run_get_bind, slot, run_acquire_bind, run_attempt_bind, run_withRecorder]
  rfl

/-- Running statements changes nothing but the connections.  They run on one, that of the
transaction if one is open, and a connection that is taken is given back. -/
theorem went_executeAll (db : Database) (statements : List String) :
    ∃ recorder taken c n, ((executeAll statements).run db).2 = { db with recorder } ∧
      db.recorder.Went recorder taken taken ((statements.take (n + 1)).map (Executed.mk c)) ∧
      (∀ c', db.transaction = some c' → c' = c) ∧
      (((executeAll statements).run db).1.isOk = true → statements.length ≤ n + 1) := by
  by_cases slot : db.transaction = none
  · obtain ⟨n, went, all⟩ :=
      db.recorder.acquire.2.went_executeAll db.recorder.acquired statements
    rw [executeAll_run_of_none slot]
    have released := congrArg (· + 1) went.released
    exact ⟨_, 1, _, n, rfl, ⟨went.executed, went.acquired, released⟩, by simp [slot], all⟩
  · obtain ⟨c, slot⟩ := Option.ne_none_iff_exists'.1 slot
    obtain ⟨n, went, all⟩ := db.recorder.went_executeAll c statements
    rw [executeAll_run_of_some slot]
    exact ⟨_, 0, c, n, rfl, went, by simp [slot], all⟩

theorem execute_run (sql : String) :
    ((execute sql).run db).2 = ((executeAll [sql]).run db).2 := by
  rw [execute, ExceptT.run_bind_eq]
  cases (executeAll [sql]).run db with
  | mk outcome after =>
      cases outcome with
      | error fault => rfl
      | ok responses =>
          dsimp only
          split <;> rfl

/-- The memo has no part in running a statement. -/
theorem execute_run_with_memo (db : Database) (sql : String) (memo : Memo) :
    (execute sql).run { db with memo } =
      let served := (execute sql).run db
      (served.1, { served.2 with memo }) := by
  have statements : (executeAll [sql]).run { db with memo } =
      let served := (executeAll [sql]).run db
      (served.1, { served.2 with memo }) := by
    obtain ⟨_, _, _, _, slot, _⟩ := db
    cases slot <;> rfl
  rw [execute, ExceptT.run_bind_eq, ExceptT.run_bind_eq, statements]
  cases (executeAll [sql]).run db with
  | mk outcome after =>
      cases outcome with
      | error fault => rfl
      | ok responses =>
          dsimp only
          split <;> rfl

theorem close_run (c : Connection) (keyword : String) :
    (close c keyword).run db =
      let ran := db.recorder.execute c keyword
      (ran.1.map fun _ => (), { db with recorder := ran.2.release }) := by
  simp only [close, run_attempt_bind, run_withRecorder]
  cases (db.recorder.execute c keyword).1 <;> rfl

theorem beginTransaction_run (unlocked : db.schemaLocked = false)
    (free : db.transaction = none) :
    beginTransaction.run db =
      let ran := db.recorder.acquire.2.execute db.recorder.acquired "BEGIN"
      (ran.1.map fun _ => (), match ran.1 with
        | .ok _ => { db with recorder := ran.2, transaction := some db.recorder.acquired }
        | .error _ => { db with recorder := ran.2.release }) := by
  simp only [beginTransaction, run_get_bind, unlocked, free, Bool.false_eq_true, if_false,
    Option.isSome_none, run_acquire_bind, run_attempt_bind, run_withRecorder]
  cases (db.recorder.acquire.2.execute db.recorder.acquired "BEGIN").1 <;> rfl

theorem beginTransaction_refused (refused : db.schemaLocked = true ∨ db.transaction.isSome) :
    ∃ fault, beginTransaction.run db = (.error fault, db) := by
  cases locked : db.schemaLocked with
  | true =>
      simp only [beginTransaction, run_get_bind, locked, if_true]
      exact ⟨_, rfl⟩
  | false =>
      have opened := refused.resolve_left (by simp [locked])
      simp only [beginTransaction, run_get_bind, locked, Bool.false_eq_true, if_false, opened,
        if_true]
      exact ⟨_, rfl⟩

theorem finish_run {c : Connection} (slot : db.transaction = some c) (keyword : String) :
    (finish keyword).run db = (close c keyword).run { db with transaction := none } := by
  simp only [finish, takeTransaction, bind_assoc, pure_bind, run_get_bind, run_modify_bind, slot]

theorem finish_refused (slot : db.transaction = none) (keyword : String) :
    ∃ fault, (finish keyword).run db = (.error fault, db) := by
  simp only [finish, takeTransaction, bind_assoc, pure_bind, run_get_bind, run_modify_bind, slot]
  exact ⟨_, congrArg (Prod.mk _) (by cases db; cases slot; rfl)⟩

theorem lockSchema_run {c : Connection} (unlocked : db.schemaLocked = false)
    (slot : db.transaction = some c) :
    lockSchema.run db =
      let closed := (close c "COMMIT").run { db with transaction := none }
      (closed.1, { closed.2 with schemaLocked := closed.1.isOk }) := by
  simp only [lockSchema, takeTransaction, bind_assoc, pure_bind, run_get_bind, run_modify_bind,
    unlocked, Bool.false_eq_true, if_false, slot, run_attempt_bind, close_run]
  cases (db.recorder.execute c "COMMIT").1 <;> rfl

theorem lockSchema_run_of_none (unlocked : db.schemaLocked = false)
    (slot : db.transaction = none) :
    lockSchema.run db = (.ok (), { db with schemaLocked := true }) := by
  simp only [lockSchema, takeTransaction, bind_assoc, pure_bind, run_get_bind, run_modify_bind,
    unlocked, Bool.false_eq_true, if_false, slot]
  rfl

theorem lockSchema_refused (locked : db.schemaLocked = true) :
    ∃ fault, lockSchema.run db = (.error fault, db) := by
  simp only [lockSchema, run_get_bind, locked, if_true]
  exact ⟨_, rfl⟩

/-- A schema change that has the lock runs its statements and gives the lock back. -/
def proceed (statements : List String) : Action Unit := do
  match ← attempt (executeAll statements) with
  | .ok _ =>
      forgetCompiled
      unlockSchema
  | .error cause =>
      unlockSchema
      throw cause

theorem changeSchema_eq (statements : List String) :
    changeSchema statements = (do lockSchema; proceed statements) :=
  rfl

theorem proceed_run (db : Database) (statements : List String) :
    ∃ memo, (proceed statements).run db =
      let ran := (executeAll statements).run db
      (ran.1.map fun _ => (), { ran.2 with memo, schemaLocked := false }) := by
  simp only [proceed, run_attempt_bind]
  cases ((executeAll statements).run db).1 with
  | ok responses => exact ⟨_, rfl⟩
  | error fault => exact ⟨_, rfl⟩

end Database

end RowQuery

/-!
# What a schema change does

A schema change that succeeds has committed the open transaction, run all its statements on
one connection and forgotten the compiled restrictions.  One that fails, at whichever
statement, has left the compiled restrictions alone.
-/

namespace RowQuery

namespace Database

open RowQuery.Action

/-- The statements that ran. -/
def record (db : Database) : List String :=
  db.recorder.executed.map Executed.sql

/-- The commit of the open transaction. -/
def openCommit (db : Database) : List Executed :=
  (db.transaction.map fun connection => ⟨connection, "COMMIT"⟩).toList

/-- What a schema change from one database to another did. -/
structure SchemaChanged (before : Database) (statements : List String) (outcome : Outcome Unit)
    (after : Database) : Prop where
  workspace : after.workspace = before.workspace
  strict : after.strict = before.strict
  forgets : outcome = .ok () → after.memo = before.memo.clear
  keeps : ∀ cause, outcome = .error cause → after.memo = before.memo
  ran : outcome = .ok () → ∃ connection, after.recorder.executed =
    before.recorder.executed ++ before.openCommit ++ statements.map (Executed.mk connection)
  closed : outcome = .ok () → after.transaction = none

theorem proceed_run_memo (db : Database) (statements : List String) :
    (proceed statements).run db =
      let ran := (executeAll statements).run db
      (ran.1.map fun _ => (),
        { ran.2 with
          memo := if ran.1.isOk then ran.2.memo.clear else ran.2.memo
          schemaLocked := false }) := by
  simp only [proceed, run_attempt_bind]
  cases ((executeAll statements).run db).1 with
  | ok responses => rfl
  | error fault => rfl

/-- The statements of a schema change that has the lock and no transaction. -/
theorem proceed_sound {db : Database} (free : db.transaction = none) (statements : List String) :
    SchemaChanged db statements ((proceed statements).run db).1 ((proceed statements).run db).2 := by
  obtain ⟨recorder, _, connection, n, after, went, -, all⟩ := went_executeAll db statements
  rw [proceed_run_memo]
  dsimp only
  rw [after]
  cases outcome : ((executeAll statements).run db).1 with
  | error cause => exact ⟨rfl, rfl, nofun, fun _ _ => rfl, nofun, nofun⟩
  | ok responses =>
      have whole : statements.take (n + 1) = statements := by
        apply List.take_of_length_le
        exact all (by rw [outcome]; rfl)
      refine ⟨rfl, rfl, fun _ => rfl, nofun, fun _ => ⟨connection, ?_⟩, fun _ => free⟩
      have executed := went.executed
      rw [whole] at executed
      simp [executed, openCommit, free]

theorem changeSchema_sound (db : Database) (statements : List String) :
    SchemaChanged db statements ((changeSchema statements).run db).1
      ((changeSchema statements).run db).2 := by
  rw [changeSchema_eq, ExceptT.run_bind_eq]
  cases locked : db.schemaLocked with
  | true =>
      obtain ⟨fault, refused⟩ := lockSchema_refused locked
      rw [refused]
      exact ⟨rfl, rfl, nofun, fun _ _ => rfl, nofun, nofun⟩
  | false =>
      cases slot : db.transaction with
      | none =>
          rw [lockSchema_run_of_none locked slot]
          have went := @proceed_sound { db with schemaLocked := true } slot statements
          exact ⟨went.workspace, went.strict, went.forgets, went.keeps, went.ran, went.closed⟩
      | some c =>
          rw [lockSchema_run locked slot, close_run]
          cases committed : (db.recorder.execute c "COMMIT").1 with
          | error cause =>
              simp only [committed, Except.map]
              exact ⟨rfl, rfl, nofun, fun _ _ => rfl, nofun, nofun⟩
          | ok response =>
              simp only [committed, Except.map]
              have went := @proceed_sound
                { db with
                  recorder := (db.recorder.execute c "COMMIT").2.release
                  transaction := none
                  schemaLocked := true }
                rfl statements
              refine ⟨went.workspace, went.strict, went.forgets, went.keeps, fun succeeded => ?_,
                went.closed⟩
              obtain ⟨connection, executed⟩ := went.ran succeeded
              refine ⟨connection, executed.trans ?_⟩
              simp [openCommit, slot, Recorder.execute, Recorder.release]

end Database

end RowQuery
