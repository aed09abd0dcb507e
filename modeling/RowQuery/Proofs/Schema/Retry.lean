import RowQuery.Dialect.Postgres
import RowQuery.Proofs.Schema.Creation
import RowQuery.Proofs.Table.WellFormed

/-!
# Creating everything again after a failure

A table is created by several statements, those of its sequences, the table and its indices,
but memory only knows whether all of them were accepted.  After a failure the tables in front of
the failing one are taken for created and it is not, so a second attempt repeats the statements
of that table which were accepted already, and no others.
-/

namespace RowQuery.Schema

open Database

variable {schema : Schema} {d : Dialect}

/-- Nothing of the schema is in the database, and its tables are such as programs can have. -/
structure Drafted (d : Dialect) (schema : Schema) : Prop where
  tables : ∀ entry ∈ schema.tables, entry.2.ReachedIn d ∧ entry.2.state = .uncreated
  views : ∀ entry ∈ schema.views, entry.2.table.state = .uncreated

/-- The statements that create a table or a view. -/
def Object.statements (d : Dialect) (object : Object) : List String :=
  (object.creation d).texts

theorem creation_created (object : Object) : object.created.creation d = .ok none := by
  cases object <;> rfl

theorem created_created (object : Object) : object.created.created = object.created := by
  cases object <;> rfl

/-- What is not in the database is created by some statements. -/
theorem Drafted.creation (drafted : schema.Drafted d) {object : Object}
    (member : object ∈ schema.objects) :
    ∃ statements, object.creation d = .ok (some statements) ∧ statements ≠ [] := by
  rcases List.mem_append.1 member with table | view
  · obtain ⟨⟨name, t⟩, known, rfl⟩ := List.mem_map.1 table
    obtain ⟨reached, uncreated⟩ := drafted.tables _ known
    obtain ⟨statements, written⟩ := reached.createTable_ok uncreated
    refine ⟨statements, ?_, ?_⟩
    · simp only [tableObject, Object.creation, Table.isCreated_of_uncreated uncreated,
        Table.ensureLive_of_uncreated uncreated, written]
      rfl
    · obtain ⟨definitions, -, ended⟩ := Except.bind_eq_ok_iff.1 written
      rw [← Except.ok.inj ended]
      simp
  · obtain ⟨⟨name, v⟩, known, rfl⟩ := List.mem_map.1 view
    have uncreated := drafted.views _ known
    refine ⟨[d.createView v.name v.selectSql], ?_, by simp⟩
    simp only [viewObject, Object.creation, Table.isCreated_of_uncreated uncreated,
      Table.ensureLive_of_uncreated uncreated]
    rfl

/-- What stands in the database is left alone. -/
theorem statements_created (done : List Object) :
    ((done.map Object.created).flatMap fun object => (object.creation d).texts) = [] := by
  simp [List.flatMap_map, creation_created, Intent.texts]

/-- A failed creation: the objects in front of the failing one are created in memory. -/
theorem createAll_failed (reached : schema.Reached) (same : schema.database.workspace.dialect = d)
    {cause : Fault} {after : Schema} (failed : createAll.run schema = (.error cause, after)) :
    ∃ done object rest told taken, schema.objects = done ++ object :: rest ∧
      after.objects = done.map Object.created ++ object :: rest ∧
      Cut (object.statements d) told taken ∧
      schema.database.Served after.database (done.flatMap (Object.statements d) ++ told)
        (done.flatMap (Object.statements d) ++ taken) := by
  obtain ⟨done, split, outcome, database, objects⟩ :=
    createAll_run reached.tidy.ordered reached.shelved reached.tidy.rooted same
  rw [failed] at outcome database objects
  obtain ⟨done', object, rest, told, taken, split', left, cut, served⟩ :=
    carryEach_served_error (Prod.ext outcome.symm rfl)
  dsimp only at database objects
  rw [left] at split objects
  rw [← database] at served
  obtain rfl : done = done' := List.append_cancel_right (split.symm.trans split')
  exact ⟨done, object, rest, told, taken, split, objects, cut, served⟩

/-- The schema with another database is one that a program can have too. -/
theorem Reached.withDatabase (reached : schema.Reached) (database : Database) :
    Reached { schema with database } :=
  .operate reached (.onDatabase (set database)) nofun

/-- The next attempt, in which no statement fails. -/
theorem createAll_succeeds (reached : schema.Reached)
    (same : schema.database.workspace.dialect = d) (willing : schema.database.Willing)
    (intended : ∀ object ∈ schema.objects, ∃ statements, object.creation d = .ok statements) :
    (createAll.run schema).1 = .ok () ∧
      (createAll.run schema).2.objects = schema.objects.map Object.created ∧
      schema.database.Served (createAll.run schema).2.database
        (schema.objects.flatMap (Object.statements d))
        (schema.objects.flatMap (Object.statements d)) := by
  obtain ⟨done, split, outcome, database, objects⟩ :=
    createAll_run reached.tidy.ordered reached.shelved reached.tidy.rooted same
  obtain ⟨succeeded, -⟩ := willing.carryEach intended
  obtain ⟨none, served⟩ := carryEach_served_ok (Prod.ext succeeded rfl)
  rw [none, List.append_nil] at split objects
  exact ⟨outcome.trans succeeded, split ▸ objects, database ▸ served⟩

/-- Creating everything fails at some table or view and is tried again on a server that answers.
The second attempt creates what the first did not, but it begins with the first statement of what
failed, so every statement is accepted exactly once only if none of that object was accepted
before; the others are accepted twice. -/
theorem creation_retried (d : Dialect) (schema : Schema) (reached : schema.Reached)
    (same : schema.database.workspace.dialect = d) (drafted : schema.Drafted d)
    (cause : Fault) (after : Schema) (failed : createAll.run schema = (.error cause, after))
    (database : Database) (workspace : database.workspace = schema.database.workspace)
    (willing : database.Willing) :
    let retried := createAll.run { after with database }
    ∃ done object rest first second taken,
      schema.objects = done ++ object :: rest ∧
      after.objects = done.map Object.created ++ object :: rest ∧
      retried.1 = .ok () ∧ retried.2.objects = schema.objects.map Object.created ∧
      taken <+: object.statements d ∧ taken ≠ object.statements d ∧
      first = done.flatMap (Object.statements d) ++ taken ∧
      second = object.statements d ++ rest.flatMap (Object.statements d) ∧
      schema.database.Accepts after.database first ∧
      database.Accepts retried.2.database second ∧
      ((first ++ second).Perm (schema.objects.flatMap (Object.statements d)) ↔ taken = []) := by
  intro retried
  obtain ⟨done, object, rest, told, taken, split, objects, cut, served⟩ :=
    createAll_failed reached same failed
  have intended : ∀ object ∈ schema.objects, ∃ statements,
      object.creation d = .ok (some statements) ∧ statements ≠ [] :=
    fun object member => drafted.creation member
  rw [split, List.forall_mem_append, List.forall_mem_cons] at intended
  obtain ⟨-, ⟨statements, planned, some⟩, later⟩ := intended
  have texts : object.statements d = statements := by rw [Object.statements, planned]; rfl
  have again : Reached { after with database } := by
    have left : Reached (createAll.run schema).2 := .operate reached .createAll nofun
    rw [failed] at left
    exact left.withDatabase database
  have open_plans : ∀ object ∈ after.objects, ∃ statements, object.creation d = .ok statements := by
    rw [objects, List.forall_mem_append, List.forall_mem_cons]
    refine ⟨fun object member => ?_, ⟨_, planned⟩, fun object member => ?_⟩
    · obtain ⟨before, -, rfl⟩ := List.mem_map.1 member
      exact ⟨none, creation_created before⟩
    · obtain ⟨statements, planned, -⟩ := later object member
      exact ⟨_, planned⟩
  obtain ⟨succeeded, created, servedAgain⟩ :=
    createAll_succeeds again ((congrArg _ workspace).trans same) willing open_plans
  have everything : Schema.objects { after with database } = after.objects := rfl
  have second : after.objects.flatMap (Object.statements d) =
      object.statements d ++ rest.flatMap (Object.statements d) := by
    rw [objects, List.flatMap_append, List.flatMap_cons]
    exact congrArg (· ++ _) (statements_created done)
  rw [everything, second] at servedAgain
  refine ⟨done, object, rest, _, _, taken, split, objects, succeeded, ?_,
    cut.accepted.trans cut.ran, cut.short (texts ▸ some), rfl, rfl, served.accepts,
    servedAgain.accepts, ?_⟩
  · rw [created, everything, objects, split]
    simp [created_created]
  · rw [split, List.flatMap_append, List.flatMap_cons]
    constructor
    · -- What was accepted of the object comes in addition to everything.
      intro permuted
      have lengths := permuted.length_eq
      simp only [List.length_append] at lengths
      exact List.length_eq_zero_iff.1 (by omega)
    · rintro rfl
      rw [List.append_nil]

section Ledger

/-- A database whose server refuses the next index. -/
def ledger : Database where
  workspace := { dialect := .postgres, functions := {} }
  recorder := Recorder.scripted {} "CREATE INDEX" (.error (.connection "denied"))

/-- A table with a sequence and an index. -/
def entries : Table :=
  (Table.new .postgres "entry").afterAll
    [.define { key := "id", kind := .int, isKey := true, isGenerated := true },
      .define { key := "note", kind := .text }, .defineIndex "note" false]

theorem entries_reached : entries.ReachedIn .postgres :=
  .afterAll (.new "entry") _

/-- A schema with that table. -/
def bookkeeping : Schema :=
  ((Operation.addTable entries).session.run { database := ledger }).2

theorem bookkeeping_reached : bookkeeping.Reached :=
  .operate (.new ledger) (.addTable entries) fun _ same => same ▸ entries_reached.reached

theorem bookkeeping_drafted : bookkeeping.Drafted .postgres := by
  constructor
  · have entry : bookkeeping.tables = [("entry", entries)] := rfl
    rw [entry]
    intro entry member
    rw [List.mem_singleton.1 member]
    exact ⟨entries_reached, by decide +kernel⟩
  · have none : bookkeeping.views = [] := rfl
    rw [none]
    exact nofun

/-- The index is refused, and the second attempt creates the sequence and the table again. -/
theorem bookkeeping_retried :
    let failed := createAll.run bookkeeping
    let database : Database := { workspace := ledger.workspace }
    let retried := createAll.run { failed.2 with database }
    let table := "CREATE TABLE \"entry\" (\"id\" INTEGER DEFAULT nextval('\"entry_id_seq\"'), " ++
      "\"note\" VARCHAR(255), PRIMARY KEY (\"id\"))"
    failed.1 = .error (.connection "denied") ∧ retried.1 = .ok () ∧
      retried.2.objects = bookkeeping.objects.map Object.created ∧
      bookkeeping.database.acceptedSince failed.2.database =
        ["CREATE SEQUENCE \"entry_id_seq\"", table] ∧
      database.acceptedSince retried.2.database =
        ["CREATE SEQUENCE \"entry_id_seq\"", table,
          "CREATE INDEX \"entry_note_idx\" ON \"entry\" (\"note\")"] := by
  intro failed database retried table
  have denied : failed.1 = .error (.connection "denied") := by decide +kernel
  have whole : failed = (.error (.connection "denied"), failed.2) := by
    rw [← denied]
    exact Prod.mk.eta.symm
  have willing : database.Willing := ⟨rfl, nofun⟩
  obtain ⟨_, _, _, _, _, _, -, -, succeeded, created, -⟩ :=
    creation_retried .postgres bookkeeping bookkeeping_reached rfl bookkeeping_drafted
      (.connection "denied") failed.2 whole database rfl willing
  exact ⟨denied, succeeded, created, by decide +kernel, by decide +kernel⟩

end Ledger

end RowQuery.Schema
