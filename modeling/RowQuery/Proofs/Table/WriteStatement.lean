import RowQuery.Proofs.Database.Running
import RowQuery.Proofs.Memo.Transparency
import RowQuery.Proofs.Table.KeyRestriction

/-!
# Statements of writes

UPDATE and DELETE under a restriction consist of a front, which no memo takes part in, and a
WHERE that is asked of the memo.  A memo that remembers what is right gives the statement that
is written without one.
-/

namespace RowQuery

/-- A write to all rows that a restriction accepts. -/
inductive BulkWrite
  | save (assignments : List (String × Assignment))
  | delete

namespace BulkWrite

def keyword : BulkWrite → String
  | save _ => "UPDATE"
  | delete => "DELETE"

/-- The arguments of the statement for one row.  A deletion has none. -/
def keyArguments (arguments : Arguments) : BulkWrite → Arguments
  | save _ => arguments
  | delete => []

def action (write : BulkWrite) (t : Table) (restriction : Option Lambda)
    (arguments : Arguments) : Action Nat :=
  match write with
  | save assignments => t.saveAll assignments restriction arguments
  | delete => t.deleteAll restriction arguments

/-- The statement in front of WHERE. -/
def front (write : BulkWrite) (w : Workspace) (t : Table) (arguments : Arguments) :
    Outcome (List String) :=
  match write with
  | save assignments =>
      if assignments.isEmpty then
        .error (.misuse ("UPDATE of " ++ t.name ++ " without assignments"))
      else do
        let sets ← assignments.mapM (w.setText t arguments)
        .ok ["UPDATE " ++ t.quotedName, "SET " ++ Text.join ", " sets]
  | delete => .ok ["DELETE FROM " ++ t.quotedName]

/-- A statement under a restriction. -/
def statement (write : BulkWrite) (w : Workspace) (t : Table) (restriction : Option Lambda)
    (arguments : Arguments) : Memoized String :=
  match write with
  | save assignments => w.update t assignments restriction arguments
  | delete => w.delete t restriction arguments

/-- The whole statement under a compiled restriction, if that is exact. -/
def finish (write : BulkWrite) (w : Workspace) (e : Lambda) (front : List String)
    (found : Restriction) : Outcome String :=
  if found.exact then .ok (spaced (front ++ w.whereClause found.sql))
  else
    .error (.inexact (write.keyword ++ " needs an exact restriction; " ++ e.toText ++
      " is not representable in SQL"))

variable (write : BulkWrite) (w : Workspace) (t : Table) (e : Lambda) (arguments : Arguments)

theorem exactWhere_run (keyword : String) (memo : Option Memo) :
    (w.exactWhere t (some e) arguments keyword).run memo =
      let answer := (w.restriction [.ofTable t] e arguments).run memo
      (answer.1 >>= fun found =>
        if found.exact then .ok (w.whereClause found.sql)
        else
          .error (.inexact (keyword ++ " needs an exact restriction; " ++ e.toText ++
            " is not representable in SQL")), answer.2) := by
  rw [Workspace.exactWhere, ExceptT.run_bind_eq]
  cases (w.restriction [.ofTable t] e arguments).run memo with
  | mk outcome memo =>
      cases outcome with
      | error fault => rfl
      | ok found =>
          obtain ⟨sql, exactness⟩ := found
          cases exactness <;> rfl

theorem statement_run (memo : Option Memo) :
    (write.statement w t (some e) arguments).run memo =
      match write.front w t arguments with
      | .error fault => (.error fault, memo)
      | .ok front =>
          let answer := (w.restriction [.ofTable t] e arguments).run memo
          (answer.1 >>= write.finish w e front, answer.2) := by
  have finished (front : List String) :
      (do
        let clause ← w.exactWhere t (some e) arguments write.keyword
        return spaced (front ++ clause) : Memoized String).run memo =
      let answer := (w.restriction [.ofTable t] e arguments).run memo
      (answer.1 >>= write.finish w e front, answer.2) := by
    rw [ExceptT.run_bind_eq, exactWhere_run]
    dsimp only
    cases ((w.restriction [.ofTable t] e arguments).run memo).1 with
    | error fault => rfl
    | ok found =>
        obtain ⟨sql, exactness⟩ := found
        cases exactness <;> rfl
  cases write with
  | delete => exact finished _
  | save assignments =>
      rw [statement, Workspace.update, front]
      by_cases empty : assignments.isEmpty
      · rw [if_pos empty, if_pos empty]
        rfl
      · rw [if_neg empty, if_neg empty]
        cases assignments.mapM (w.setText t arguments) with
        | error fault => rfl
        | ok sets => exact finished _

/-- The request to the memo that a statement makes. -/
def request (t : Table) (e : Lambda) (arguments : Arguments) : RestrictionRequest :=
  ⟨[.ofTable t], e, arguments⟩

/-- A statement, written without a memo. -/
def afresh (write : BulkWrite) (w : Workspace) (t : Table) (e : Lambda) (arguments : Arguments) :
    Outcome String := do
  let front ← write.front w t arguments
  let found ← (request t e arguments).afresh w
  write.finish w e front found

variable {w t e arguments} in
theorem afresh_of_fault {fault : Fault} (refused : (request t e arguments).afresh w = .error fault) :
    ∃ fault, write.afresh w t e arguments = .error fault := by
  rw [afresh, refused]
  cases write.front w t arguments <;> exact ⟨_, rfl⟩

variable {w t e arguments} in
theorem afresh_of_exact {sql : String}
    (compiled : (request t e arguments).afresh w = .ok ⟨sql, true⟩) :
    write.afresh w t e arguments =
      (write.front w t arguments).map fun front => spaced (front ++ w.whereClause sql) := by
  rw [afresh, compiled]
  cases write.front w t arguments <;> rfl

theorem write_run (db : Database) :
    (Action.write fun w => write.statement w t (some e) arguments).run db =
      match write.front db.workspace t arguments with
      | .error fault => (.error fault, db)
      | .ok front =>
          let r := request t e arguments
          let answer := db.memo.fetch (r.key db.workspace) fun _ => r.afresh db.workspace
          (answer.1 >>= write.finish db.workspace e front, { db with memo := answer.2 }) := by
  change (match (write.statement db.workspace t (some e) arguments).run (some db.memo) with
    | (outcome, memo) => (outcome, { db with memo := memo.getD db.memo })) = _
  rw [statement_run]
  cases write.front db.workspace t arguments <;> rfl

/-- A statement for a row, by its key. -/
def rowStatement (write : BulkWrite) (w : Workspace) (t : Table) (arguments : Arguments)
    (row : Row) : Outcome String := do
  let key ← t.keyRestriction row
  write.afresh w t key (write.keyArguments arguments)

/-- A statement changes nothing but the memo, and is the one that is written without memo as
long as what the memo remembers is right. -/
theorem write_run_spec (db : Database) :
    ∃ outcome memo, (Action.write fun w => write.statement w t (some e) arguments).run db =
        (outcome, { db with memo }) ∧
      (∀ sql, outcome = .ok sql → ∃ front, write.front db.workspace t arguments = .ok front) ∧
      ∀ among, RestrictionRequest.KeysDecide db.workspace among →
        RestrictionRequest.Remembers db.workspace among db.memo → among (request t e arguments) →
          outcome = write.afresh db.workspace t e arguments ∧
            RestrictionRequest.Remembers db.workspace among memo := by
  rw [write_run, afresh]
  cases write.front db.workspace t arguments with
  | error fault =>
      exact ⟨_, db.memo, rfl, nofun, fun among _ remembers _ => ⟨rfl, remembers⟩⟩
  | ok front =>
      refine ⟨_, _, rfl, fun _ _ => ⟨front, rfl⟩, fun among decided remembers inSet => ?_⟩
      obtain ⟨answer, remembers⟩ := remembers.fetch decided inSet
      rw [answer]
      exact ⟨rfl, remembers⟩

/-- What a statement for a row takes besides an exact restriction: a value for each key column,
and values to write. -/
structure Prepared (write : BulkWrite) (w : Workspace) (t : Table) (arguments : Arguments)
    (row : Row) : Prop where
  keyed : ∃ key, t.keyRestriction row = .ok key
  fronted : ∃ front, write.front w t (write.keyArguments arguments) = .ok front

/-- The statements for some rows, as long as what the memo remembers is right. -/
theorem statementsByKey_run (rows : List Row) (db : Database) :
    ∃ outcome memo,
      (t.statementsByKey
        (fun key w => write.statement w t (some key) (write.keyArguments arguments)) rows).run db =
          (outcome, { db with memo }) ∧
      (∀ sqls, outcome = .ok sqls → ∀ row ∈ rows, write.Prepared db.workspace t arguments row) ∧
      ∀ among, RestrictionRequest.KeysDecide db.workspace among →
        RestrictionRequest.Remembers db.workspace among db.memo →
        (∀ row ∈ rows, ∀ key, t.keyRestriction row = .ok key →
          among (request t key (write.keyArguments arguments))) →
          outcome = rows.mapM (write.rowStatement db.workspace t arguments) := by
  induction rows generalizing db with
  | nil => exact ⟨_, _, rfl, by simp, fun _ _ _ _ => rfl⟩
  | cons row rows ih =>
      rw [Table.statementsByKey, ExceptT.run_bind_eq]
      cases made : t.keyRestriction row with
      | error fault =>
          refine ⟨_, _, rfl, nofun, fun _ _ _ _ => ?_⟩
          rw [List.mapM_cons, rowStatement, made]
          rfl
      | ok key =>
          obtain ⟨outcome, memo, run, front, spec⟩ :=
            write.write_run_spec t key (write.keyArguments arguments) db
          have first : write.rowStatement db.workspace t arguments row =
              write.afresh db.workspace t key (write.keyArguments arguments) := by
            rw [rowStatement, made]
            rfl
          change ∃ outcome' memo', (Action.write _ >>= _).run db = _ ∧ _
          rw [ExceptT.run_bind_eq, run]
          cases outcome with
          | error fault =>
              refine ⟨_, _, rfl, nofun, fun among decided remembers inSet => ?_⟩
              obtain ⟨answer, -⟩ := spec among decided remembers (inSet row (by simp) key made)
              rw [List.mapM_cons, first, ← answer]
              rfl
          | ok sql =>
              obtain ⟨rest, memo', runRest, prepared, specRest⟩ := ih { db with memo }
              dsimp only
              rw [ExceptT.run_bind_eq, runRest]
              refine ⟨rest.map (sql :: ·), memo', by cases rest <;> rfl, ?_,
                fun among decided remembers inSet => ?_⟩
              · intro sqls written
                obtain ⟨later, ended, -⟩ := Except.map_eq_ok_iff.1 written
                exact List.forall_mem_cons.2 ⟨⟨⟨key, made⟩, front sql rfl⟩, prepared later ended⟩
              · obtain ⟨answer, remembers⟩ :=
                  spec among decided remembers (inSet row (by simp) key made)
                rw [specRest among decided remembers fun row member => inSet row (by simp [member]),
                  List.mapM_cons, first, ← answer]
                cases rows.mapM (write.rowStatement db.workspace t arguments) <;> rfl

section Memo

variable {t e arguments} {db : Database}

/-- What a memo knows of a restriction that it was just asked for. -/
structure Asked (db : Database) (r : RestrictionRequest) (memo : Memo) : Prop where
  remembered : memo.find? (r.key db.workspace) = (r.afresh db.workspace).toOption
  right : ∀ among, RestrictionRequest.KeysDecide db.workspace among → among r →
    RestrictionRequest.Remembers db.workspace among memo

theorem fetch_of_forgotten (forgotten : db.memo.entries = []) (r : RestrictionRequest) :
    ∃ memo, (db.memo.fetch (r.key db.workspace) fun _ => r.afresh db.workspace) =
      (r.afresh db.workspace, memo) ∧ Asked db r memo := by
  have missed : db.memo.find? (r.key db.workspace) = none := by
    simp [Memo.find?, forgotten]
  have nothing (among) : RestrictionRequest.Remembers db.workspace among db.memo := by
    simp [RestrictionRequest.Remembers, forgotten]
  have right (among) (decided : RestrictionRequest.KeysDecide db.workspace among)
      (inSet : among r) := ((nothing among).fetch decided inSet).2
  rw [Memo.fetch, missed] at right ⊢
  cases compiled : r.afresh db.workspace with
  | error fault =>
      rw [compiled] at right
      exact ⟨_, rfl, by rw [compiled]; exact missed, right⟩
  | ok found =>
      rw [compiled] at right
      exact ⟨_, rfl, by rw [compiled]; exact RestrictionRequest.find?_store_self _ _ _, right⟩

/-- The memo is asked once more. -/
theorem Asked.fetch {memo : Memo} {r : RestrictionRequest} (asked : Asked db r memo) :
    ∃ memo', (memo.fetch (r.key db.workspace) fun _ => r.afresh db.workspace) =
      (r.afresh db.workspace, memo') ∧ Asked db r memo' := by
  have right (among) (decided : RestrictionRequest.KeysDecide db.workspace among)
      (inSet : among r) := ((asked.right among decided inSet).fetch decided inSet).2
  have remembered := asked.remembered
  rw [Memo.fetch, remembered] at right ⊢
  cases compiled : r.afresh db.workspace with
  | error fault =>
      rw [compiled] at right remembered
      exact ⟨_, rfl, by rw [compiled]; exact remembered, right⟩
  | ok found =>
      rw [compiled] at right
      exact ⟨_, rfl, by rw [compiled]; exact RestrictionRequest.find?_store_self _ _ _, right⟩

theorem Asked.restriction_run {memo : Memo} (asked : Asked db (request t e arguments) memo) :
    ∃ memo', (db.workspace.restriction [.ofTable t] e arguments).run (some memo) =
        ((request t e arguments).afresh db.workspace, some memo') ∧
      Asked db (request t e arguments) memo' := by
  obtain ⟨memo', answer, asked⟩ := asked.fetch
  exact ⟨memo', congrArg (fun fetched : Outcome Restriction × Memo =>
    (fetched.1, some fetched.2)) answer, asked⟩

/-- The first look at a restriction. -/
theorem isInexact_run (forgotten : db.memo.entries = []) :
    ∃ memo, (t.isInexact (some e) arguments).run db =
        (.ok (((request t e arguments).afresh db.workspace).toOption.any fun found =>
          !found.exact), { db with memo }) ∧
      Asked db (request t e arguments) memo := by
  obtain ⟨memo, answer, asked⟩ := fetch_of_forgotten forgotten (request t e arguments)
  refine ⟨memo, ?_, asked⟩
  have written : (Action.write fun w => w.restriction [.ofTable t] e arguments).run db =
      ((request t e arguments).afresh db.workspace, { db with memo }) :=
    congrArg (fun fetched : Outcome Restriction × Memo =>
      (fetched.1, ({ db with memo := fetched.2 } : Database))) answer
  change (Action.attempt _ >>= _).run db = _
  rw [Action.run_attempt_bind, written]
  cases (request t e arguments).afresh db.workspace <;> rfl

end Memo

end BulkWrite

end RowQuery
