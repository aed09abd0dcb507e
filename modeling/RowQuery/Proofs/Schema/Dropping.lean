import RowQuery.Proofs.Schema.Retry

/-!
# Dropping everything up to a failure

Each view and table is taken out of the schema before its statements run.  So when they fail the
schema has forgotten the object that is still in the database, and only keeps those that it has not
come to.  A second attempt drops these, but never the object that failed.
-/

namespace RowQuery

namespace Database

variable {α : Type} {intent : α → Intent} {db db' : Database}

/-- Of plans that are carried out one after the other, the one that fails is itself a refusal, or
has statements. -/
theorem carryEach_failing {items left : List α} {cause : Fault}
    (ran : carryEach intent items db = (.error cause, left, db')) :
    ∃ a rest, left = a :: rest ∧ intent a ≠ .ok none := by
  induction items generalizing db with
  | nil => cases ran
  | cons a rest ih =>
      rw [carryEach] at ran
      rcases first : (carryOut (intent a)).run db with ⟨_ | _, between⟩
      · rw [first] at ran
        cases ran
        refine ⟨a, rest, rfl, fun silent => ?_⟩
        rw [silent] at first
        cases first
      · rw [first] at ran
        exact ih ran

end Database

namespace Schema

open Database

variable {schema : Schema} {d : Dialect}

/-- The statements that drop a table or a view. -/
def Object.removal (d : Dialect) (object : Object) : List String :=
  (object.deletion d).texts

def Object.state : Object → TableState
  | .table _ t => t.state
  | .view _ v => v.table.state

/-- What is done to a table or a view that is in the database. -/
theorem intent_cases (t : Table) {statements : List String} (spoken : statements ≠ [])
    {intent : Intent}
    (planned : intent = do t.ensureLive; .ok (if t.isCreated then some statements else none)) :
    (t.state = .dropped ∧ intent.texts = []) ∨ (t.state = .uncreated ∧ intent = .ok none) ∨
      t.state = .created ∧ ∃ statements, intent = .ok (some statements) ∧ statements ≠ [] := by
  subst planned
  cases state : t.state with
  | dropped =>
      refine .inl ⟨rfl, ?_⟩
      rw [Table.ensureLive, if_pos state]
      rfl
  | uncreated =>
      refine .inr (.inl ⟨rfl, ?_⟩)
      rw [Table.ensureLive_of_uncreated state, Table.isCreated_of_uncreated state]
      rfl
  | created =>
      refine .inr (.inr ⟨rfl, statements, ?_, spoken⟩)
      simp only [Table.ensureLive, Table.isCreated, state]
      rfl

/-- What is in the database is dropped by some statements, and what is not by none; what was dropped
before is refused. -/
theorem deletion_cases (d : Dialect) (object : Object) :
    (object.state = .dropped ∧ object.removal d = []) ∨
      (object.state = .uncreated ∧ object.deletion d = .ok none) ∨
      object.state = .created ∧
        ∃ statements, object.deletion d = .ok (some statements) ∧ statements ≠ [] := by
  cases object with
  | table _ t => exact intent_cases t (List.cons_ne_nil _ _) rfl
  | view _ v => exact intent_cases v.table (List.cons_ne_nil _ _) rfl

theorem deletion_of_live {object : Object} (live : object.state ≠ .dropped) :
    ∃ statements, object.deletion d = .ok statements := by
  rcases deletion_cases d object with ⟨dropped, -⟩ | ⟨-, silent⟩ | ⟨-, statements, planned, -⟩
  · exact absurd dropped live
  · exact ⟨none, silent⟩
  · exact ⟨some statements, planned⟩

/-- No view and no table is dropped twice. -/
theorem droppings_nodup (tables : schema.tables.Ordered) (views : schema.views.Ordered) :
    schema.droppings.Nodup := by
  have distinct {α : Type} {entries : Keyed α} (ordered : entries.Ordered) : entries.Nodup :=
    ordered.imp fun below same => absurd (same ▸ below) (lt_irrefl _)
  refine List.nodup_append.2 ⟨(distinct views).map ?_, (distinct tables).map ?_, ?_⟩
  · rintro ⟨_, _⟩ ⟨_, _⟩ same
    cases same
    rfl
  · rintro ⟨_, _⟩ ⟨_, _⟩ same
    cases same
    rfl
  · intro view member table known same
    obtain ⟨v, -, rfl⟩ := List.mem_map.1 member
    obtain ⟨t, -, rfl⟩ := List.mem_map.1 known
    cases same

/-- A failed attempt: what it came to is out of the schema, and of the last object not all
statements were accepted. -/
theorem dropAll_failed (reached : schema.Reached) (same : schema.database.workspace.dialect = d)
    {cause : Fault} {after : Schema} (failed : dropAll.run schema = (.error cause, after)) :
    ∃ done object rest told taken, schema.droppings = done ++ object :: rest ∧
      after.droppings = rest ∧ object.deletion d ≠ .ok none ∧
      Cut (object.removal d) told taken ∧
      schema.database.Served after.database (done.flatMap (Object.removal d) ++ told)
        (done.flatMap (Object.removal d) ++ taken) := by
  obtain ⟨outcome, database, left⟩ := dropAll_takes reached.tidy.rooted same
  rw [failed] at outcome database left
  obtain ⟨done, object, rest, told, taken, split, remains, cut, served⟩ :=
    carryEach_served_error (Prod.ext outcome.symm rfl)
  obtain ⟨object', rest', remains', spoken⟩ := carryEach_failing (Prod.ext outcome.symm rfl)
  obtain ⟨rfl, rfl⟩ := List.cons.inj (remains.symm.trans remains')
  rw [remains] at left
  rw [← database] at served
  exact ⟨done, object, rest, told, taken, split, left, spoken, cut, served⟩

/-- The next attempt, in which no statement fails. -/
theorem dropAll_succeeds (reached : schema.Reached)
    (same : schema.database.workspace.dialect = d) (willing : schema.database.Willing)
    (live : ∀ object ∈ schema.droppings, object.state ≠ .dropped) :
    (dropAll.run schema).1 = .ok () ∧ (dropAll.run schema).2.droppings = [] ∧
      schema.database.Served (dropAll.run schema).2.database
        (schema.droppings.flatMap (Object.removal d))
        (schema.droppings.flatMap (Object.removal d)) := by
  obtain ⟨outcome, database, left⟩ := dropAll_takes reached.tidy.rooted same
  obtain ⟨succeeded, -⟩ := willing.carryEach fun object member =>
    deletion_of_live (d := d) (live object member)
  obtain ⟨none, served⟩ := carryEach_served_ok (Prod.ext succeeded rfl)
  rw [none] at left
  exact ⟨outcome.trans succeeded, left, database ▸ served⟩

/-- Dropping everything fails at some view or table and is tried again on a server that answers.
After the first attempt the schema has just those objects that it did not come to.  The one that
failed is forgotten, although it is in the database and not all its statements were accepted, or had
been dropped on its own before; so the second attempt drops everything but this one. -/
theorem drop_forgets_failing_object (d : Dialect) (schema : Schema) (reached : schema.Reached)
    (same : schema.database.workspace.dialect = d) (cause : Fault) (after : Schema)
    (failed : dropAll.run schema = (.error cause, after)) :
    ∃ done object rest taken,
      schema.droppings = done ++ object :: rest ∧
      after.droppings = rest ∧ object ∉ after.droppings ∧
      taken <+: object.removal d ∧
      (object.state = .created ∧ taken ≠ object.removal d ∨ object.state = .dropped) ∧
      schema.database.Accepts after.database (done.flatMap (Object.removal d) ++ taken) ∧
      ∀ database : Database, database.workspace = schema.database.workspace → database.Willing →
        (∀ other ∈ rest, other.state ≠ .dropped) →
        let again := dropAll.run { after with database }
        again.1 = .ok () ∧ again.2.droppings = [] ∧
          database.Accepts again.2.database (rest.flatMap (Object.removal d)) := by
  obtain ⟨done, object, rest, told, taken, split, left, spoken, cut, served⟩ :=
    dropAll_failed reached same failed
  have once := droppings_nodup reached.tidy.ordered reached.shelved
  rw [split, List.nodup_append, List.nodup_cons] at once
  refine ⟨done, object, rest, taken, split, left, left ▸ once.2.1.1, cut.accepted.trans cut.ran,
    ?_, served.accepts, fun database workspace willing live => ?_⟩
  · rcases deletion_cases d object with
      ⟨dropped, -⟩ | ⟨-, silent⟩ | ⟨created, statements, planned, some⟩
    · exact .inr dropped
    · exact absurd silent spoken
    · have texts : object.removal d = statements := by rw [Object.removal, planned]; rfl
      exact .inl ⟨created, cut.short (texts ▸ some)⟩
  · have remaining : Reached { after with database } := by
      have gone : Reached (dropAll.run schema).2 := .operate reached .dropAll nofun
      rw [failed] at gone
      exact gone.withDatabase database
    have everything : Schema.droppings { after with database } = rest := left
    obtain ⟨succeeded, none, servedAgain⟩ :=
      dropAll_succeeds remaining ((congrArg _ workspace).trans same) willing (everything ▸ live)
    rw [everything] at servedAgain
    exact ⟨succeeded, none, servedAgain.accepts⟩

section Lending

/-- A database whose server refuses to drop the books. -/
def lending : Database where
  workspace := { dialect := .postgres, functions := {} }
  recorder := Recorder.scripted {} "DROP TABLE \"book\"" (.error (.connection "denied"))

def authors : Table :=
  (Table.new .postgres "author").afterAll [.define { key := "name", kind := .text }]

def books : Table :=
  (Table.new .postgres "book").afterAll [.define { key := "title", kind := .text }]

def shelves : Table :=
  (Table.new .postgres "shelf").afterAll [.define { key := "room", kind := .int }]

/-- The three tables, and their schema when they are in the database. -/
def inventory : Schema :=
  ((addTable shelves).run ((addTable books).run ((addTable authors).run
    { database := lending }).2).2).2

def library : Schema :=
  (createAll.run inventory).2

theorem inventory_reached : inventory.Reached := by
  have declared (name : String) (operations : List Table.Operation) :
      ((Table.new .postgres name).afterAll operations).Reached :=
    (Table.ReachedIn.afterAll (.new name) operations).reached
  have first : Reached ((addTable authors).run { database := lending }).2 :=
    .operate (.new lending) (.addTable authors) fun t same => same ▸ declared _ _
  have second : Reached ((addTable books).run _).2 :=
    .operate first (.addTable books) fun t same => same ▸ declared _ _
  exact .operate second (.addTable shelves) fun t same => same ▸ declared _ _

theorem library_reached : library.Reached :=
  .operate inventory_reached .createAll nofun

theorem library_workspace : library.database.workspace = lending.workspace := by
  obtain ⟨_, -, -, database, -⟩ := createAll_run inventory_reached.tidy.ordered
    inventory_reached.shelved inventory_reached.tidy.rooted rfl
  rw [library, database, carryEach_workspace]
  rfl

/-- The books stay in the database but are forgotten, and the second attempt only drops the
shelves. -/
theorem library_forgets_books :
    let failed := dropAll.run library
    let database : Database := { workspace := lending.workspace }
    let again := dropAll.run { failed.2 with database }
    failed.1 = .error (.connection "denied") ∧
      (∃ object ∈ library.droppings, object.name = "book" ∧ object ∉ failed.2.droppings) ∧
      again.1 = .ok () ∧ again.2.droppings = [] ∧
      library.database.acceptedSince failed.2.database = ["DROP TABLE \"author\""] ∧
      database.acceptedSince again.2.database = ["DROP TABLE \"shelf\""] := by
  intro failed database again
  have willing : database.Willing := ⟨rfl, nofun⟩
  obtain ⟨denied, live, before, remaining, dropped, later⟩ :
      failed.1 = .error (.connection "denied") ∧
        (∀ other ∈ failed.2.droppings, other.state ≠ .dropped) ∧
        library.droppings.map Object.name = ["author", "book", "shelf"] ∧
        failed.2.droppings.map Object.name = ["shelf"] ∧
        library.database.acceptedSince failed.2.database = ["DROP TABLE \"author\""] ∧
        database.acceptedSince again.2.database = ["DROP TABLE \"shelf\""] := by
    decide +kernel
  obtain ⟨done, object, rest, taken, split, left, gone, -, -, -, retried⟩ :=
    drop_forgets_failing_object .postgres library library_reached
      (congrArg Workspace.dialect library_workspace) (.connection "denied") failed.2
      (Prod.ext denied rfl)
  obtain ⟨succeeded, none, -⟩ := retried database library_workspace.symm willing (left ▸ live)
  refine ⟨denied, ⟨object, by simp [split], ?_, gone⟩, succeeded, none, dropped, later⟩
  -- Of three objects the last one is left, so the failing one is in the middle.
  rw [split, List.map_append, List.map_cons, ← left, remaining] at before
  have front : (done.map Object.name ++ [object.name]) ++ ["shelf"] =
      ["author", "book"] ++ ["shelf"] := by simpa using before
  simpa using congrArg List.getLast? (List.append_cancel_right front)

end Lending

end Schema

end RowQuery
