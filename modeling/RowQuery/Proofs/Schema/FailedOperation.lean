import RowQuery.Dialect.Ansi
import RowQuery.Proofs.Keyed
import RowQuery.Proofs.Table.Reached

/-!
# Operations that fail

An operation on a table that ends in a fault leaves the table as it was: its columns, indices
and references in their order, its names and its state.  It does not matter where the fault
comes from, a check, the commit that the schema lock forces or any of the statements.  The
same holds for the tables and views of a schema when a table is dropped or renamed: a table
that was taken out comes back to its place because the schema keeps its names in order.
-/

namespace RowQuery

namespace Session

variable {α β : Type} {P : Schema → Prop}

/-- The computation keeps a property of the schema, whether it fails or not. -/
def Keeps (P : Schema → Prop) (session : Session α) : Prop :=
  ∀ schema, P schema → P (session.run schema).2

theorem Keeps.bind {session : Session α} {rest : α → Session β} (first : session.Keeps P)
    (second : ∀ a, (rest a).Keeps P) : (session >>= rest).Keeps P := by
  intro schema holds
  rw [ExceptT.run_bind_eq]
  have between := first schema holds
  rcases ran : session.run schema with ⟨_ | a, left⟩
  · rwa [ran] at between
  · rw [ran] at between
    exact second a left between

/-- What follows may use the schema as it stands. -/
theorem keeps_get_bind {rest : Schema → Session β}
    (keeps : ∀ schema, P schema → P ((rest schema).run schema).2) :
    (get >>= rest).Keeps P :=
  keeps

theorem keeps_pure (a : α) : (pure a : Session α).Keeps P :=
  fun _ holds => holds

theorem keeps_throw (fault : Fault) : (throw fault : Session α).Keeps P :=
  fun _ holds => holds

theorem keeps_set {schema : Schema} (holds : P schema) : (set schema : Session PUnit).Keeps P :=
  fun _ _ => holds

theorem Keeps.attempt {session : Session α} (keeps : session.Keeps P) :
    (attempt session).Keeps P :=
  keeps

theorem keeps_forIn {items : List α} {body : α → PUnit → Session (ForInStep PUnit)}
    (each : ∀ a ∈ items, ∀ u, (body a u).Keeps P) (u : PUnit) :
    (forIn items u body : Session PUnit).Keeps P := by
  induction items generalizing u with
  | nil => exact keeps_pure _
  | cons item items ih =>
      rw [List.forIn_cons]
      refine (each item List.mem_cons_self u).bind fun step => ?_
      cases step with
      | done u => exact keeps_pure _
      | yield u => exact ih (fun a member => each a (List.mem_cons_of_mem _ member)) u

theorem run_onDatabase (schema : Schema) (action : Action α) :
    (onDatabase action).run schema =
      ((action.run schema.database).1,
        { schema with database := (action.run schema.database).2 }) :=
  rfl

theorem run_modifyTables_bind (schema : Schema) (change : Keyed Table → Keyed Table)
    (rest : Unit → Session β) :
    (modifyTables change >>= rest).run schema =
      (rest ()).run { schema with tables := change schema.tables } :=
  rfl

theorem run_onTable_bind (schema : Schema) (t : Table) (alteration : Alteration Unit)
    (rest : Outcome Unit × Table → Session β) :
    (onTable t alteration >>= rest).run schema =
      let ran := alteration.run (t, schema.database)
      (rest (ran.1, ran.2.1)).run { schema with database := ran.2.2 } :=
  rfl

end Session

namespace Schema

open Session

/-- The tables stand in the order of their names, with indices and references on their own
columns. -/
structure Tidy (schema : Schema) : Prop where
  ordered : schema.tables.Ordered
  rooted : ∀ pair ∈ schema.tables, pair.2.Rooted

theorem keeps_onDatabase {α : Type} (action : Action α) : (onDatabase action).Keeps Tidy :=
  fun _ tidy => ⟨tidy.ordered, tidy.rooted⟩

theorem keeps_modifyViews (change : Keyed View → Keyed View) : (modifyViews change).Keeps Tidy :=
  fun _ tidy => ⟨tidy.ordered, tidy.rooted⟩

theorem Tidy.put {schema : Schema} (tidy : schema.Tidy) (name : String) {t : Table}
    (rooted : t.Rooted) (database : Database) :
    Tidy { schema with database, tables := schema.tables.put name t } := by
  refine ⟨tidy.ordered.put name t, fun pair member => ?_⟩
  rcases Keyed.mem_put member with rfl | member
  · exact rooted
  · exact tidy.rooted pair member

theorem keeps_put (name : String) {t : Table} (rooted : t.Rooted) :
    (modifyTables (Keyed.put name t)).Keeps Tidy :=
  fun schema tidy => tidy.put name rooted schema.database

theorem keeps_erase (name : String) : (modifyTables (Keyed.erase name)).Keeps Tidy :=
  fun _ tidy => ⟨tidy.ordered.erase name, fun pair member =>
    tidy.rooted pair (Keyed.mem_erase member)⟩

/-! ## Running the operations of a schema -/

variable {schema : Schema} {t : Table}

theorem mem_of_get? {map : Keyed Table} {name : String} (found : map.get? name = some t) :
    (name, t) ∈ map := by
  induction map with
  | nil => cases found
  | cons pair rest ih =>
      rw [Keyed.get?] at found
      split at found
      · rename_i same
        rw [← Option.some.inj found, ← same]
        exact List.mem_cons_self
      · exact List.mem_cons_of_mem _ (ih found)

theorem requireTable_bind {β : Type} {name : String} (found : schema.tables.get? name = some t)
    (rest : Table → Session β) :
    (do let t ← (← get).requireTable name; rest t : Session β).run schema =
      (rest t).run schema := by
  have required : schema.requireTable name = .ok t := by rw [requireTable, found]
  change ((liftM (schema.requireTable name) : Session Table) >>= rest).run schema = _
  rw [required]
  rfl

theorem requireTable_bind_of_none {β : Type} {name : String}
    (absent : schema.tables.get? name = none) (rest : Table → Session β) :
    (do let t ← (← get).requireTable name; rest t : Session β).run schema =
      (.error (noTable name), schema) := by
  have required : schema.requireTable name = .error (noTable name) := by
    rw [requireTable, absent]
  change ((liftM (schema.requireTable name) : Session Table) >>= rest).run schema = _
  rw [required]
  rfl

theorem alterTable_run {name : String} (found : schema.tables.get? name = some t)
    (alteration : Alteration Unit) :
    (alterTable name alteration).run schema =
      let ran := alteration.run (t, schema.database)
      (ran.1, { schema with
        database := ran.2.2
        tables := schema.tables.put name ran.2.1 }) := by
  rw [alterTable, requireTable_bind found, run_onTable_bind, run_modifyTables_bind]
  rfl

theorem alterTable_run_of_none {name : String} (absent : schema.tables.get? name = none)
    (alteration : Alteration Unit) :
    (alterTable name alteration).run schema = (.error (noTable name), schema) := by
  rw [alterTable, requireTable_bind_of_none absent]

/-- The tables after one of them is renamed, as it comes out. -/
def renamedTables (tables : Keyed Table) (old new : String) (t : Table) : Keyed Table :=
  ((tables.erase old).put new t).map fun pair => (pair.1, pair.2.retargeted old new)

theorem ensureUnused_run (schema : Schema) (name : String) :
    (ensureUnused name).run schema =
      if schema.tables.has name || schema.views.has name then (.error (.duplicate name), schema)
      else (.ok (), schema) := by
  change (if schema.tables.has name || schema.views.has name then
    (throw (.duplicate name) : Session Unit) else pure ()).run schema = _
  split <;> rfl

theorem addTable_run (t : Table) (schema : Schema) :
    (addTable t).run schema =
      if schema.tables.has t.name || schema.views.has t.name then
        (.error (.duplicate t.name), schema)
      else (.ok (), { schema with tables := schema.tables.put t.name t }) := by
  rw [addTable, ExceptT.run_bind_eq, ensureUnused_run]
  cases schema.tables.has t.name || schema.views.has t.name <;> rfl

theorem addView_run (v : View) (schema : Schema) :
    (addView v).run schema =
      if schema.tables.has v.name || schema.views.has v.name then
        (.error (.duplicate v.name), schema)
      else (.ok (), { schema with views := schema.views.put v.name v }) := by
  rw [addView, ExceptT.run_bind_eq, ensureUnused_run]
  cases schema.tables.has v.name || schema.views.has v.name <;> rfl

theorem renameTable_run {old new : String}
    (unused : (schema.tables.has new || schema.views.has new) = false)
    (found : schema.tables.get? old = some t) :
    (renameTable old new).run schema =
      match (Alteration.rename new).run (t, schema.database) with
      | (.ok _, t, database) =>
          (.ok (), { schema with database, tables := renamedTables schema.tables old new t })
      | (.error cause, t, database) =>
          (.error cause, { schema with
            database
            tables := (schema.tables.erase old).put old t }) := by
  have free : (ensureUnused new).run schema = (.ok (), schema) := by
    rw [ensureUnused_run, unused]
    rfl
  rw [renameTable, ExceptT.run_bind_of_ok free, requireTable_bind found, run_modifyTables_bind,
    run_onTable_bind]
  rcases (Alteration.rename new).run (t, schema.database) with ⟨_ | _, t', database⟩ <;> rfl

theorem renameTable_run_of_refused {old new : String}
    (refused : (schema.tables.has new || schema.views.has new) = true ∨
      schema.tables.get? old = none) :
    ∃ cause, (renameTable old new).run schema = (.error cause, schema) := by
  rw [renameTable, ExceptT.run_bind_eq, ensureUnused_run]
  cases unused : schema.tables.has new || schema.views.has new with
  | true => exact ⟨_, rfl⟩
  | false =>
      have absent := refused.resolve_left (by simp [unused])
      refine ⟨noTable old, ?_⟩
      rw [if_neg Bool.false_ne_true]
      exact requireTable_bind_of_none absent _

/-! ## The operations keep a schema tidy -/

theorem keeps_ensureUnused (name : String) : (ensureUnused name).Keeps Tidy := by
  intro schema tidy
  rw [ensureUnused_run]
  split <;> exact tidy

theorem keeps_addTable (rooted : t.Rooted) : (addTable t).Keeps Tidy :=
  (keeps_ensureUnused _).bind fun _ => keeps_put _ rooted

theorem keeps_addView (v : View) : (addView v).Keeps Tidy :=
  (keeps_ensureUnused _).bind fun _ => keeps_modifyViews _

theorem keeps_alterTable (name : String) (operation : Table.Operation) :
    (alterTable name operation.alteration).Keeps Tidy := by
  intro schema tidy
  cases found : schema.tables.get? name with
  | none =>
      rw [alterTable_run_of_none found]
      exact tidy
  | some t =>
      have rooted := tidy.rooted _ (mem_of_get? found)
      rw [alterTable_run found]
      exact tidy.put name (rooted.run operation _) _

theorem keeps_changeView (name : String) (change : View → Action View) :
    (changeView name change).Keeps Tidy := by
  refine keeps_get_bind fun schema tidy => ?_
  cases schema.views.get? name with
  | none => exact tidy
  | some v => exact (keeps_onDatabase _).bind (fun _ => keeps_modifyViews _) schema tidy

theorem keeps_createAll : createAll.Keeps Tidy := by
  refine keeps_get_bind fun schema tidy => ?_
  refine Keeps.bind (keeps_forIn (fun pair _ _ => ?_) _) (fun _ => ?_) schema tidy
  · obtain ⟨name, t⟩ := pair
    dsimp only
    split
    · exact (keeps_alterTable name .create).bind fun _ => keeps_pure _
    · exact keeps_pure _
  · refine keeps_get_bind fun schema tidy => ?_
    refine Keeps.bind (keeps_forIn (fun pair _ _ => ?_) _) (fun _ => keeps_pure _) schema tidy
    obtain ⟨name, v⟩ := pair
    dsimp only
    split
    · exact (keeps_changeView name _).bind fun _ => keeps_pure _
    · exact keeps_pure _

theorem keeps_dropAll : dropAll.Keeps Tidy := by
  refine keeps_get_bind fun schema tidy => ?_
  refine Keeps.bind (keeps_forIn (fun pair _ _ => ?_) _) (fun _ => ?_) schema tidy
  · refine (keeps_modifyViews _).bind fun _ => ?_
    exact (keeps_onDatabase _).bind fun _ => keeps_pure _
  · refine keeps_get_bind fun schema tidy => ?_
    refine Keeps.bind (keeps_forIn (fun pair _ _ => ?_) _) (fun _ => keeps_pure _) schema tidy
    refine (keeps_erase _).bind fun _ => ?_
    exact (keeps_onDatabase _).bind fun _ => keeps_pure _

theorem keeps_dropTable (name : String) : (dropTable name).Keeps Tidy :=
  (keeps_alterTable name .drop).bind fun _ => keeps_erase name

theorem Tidy.renamed (tidy : schema.Tidy) (rooted : t.Rooted) (old new : String)
    (database : Database) :
    Tidy { schema with database, tables := renamedTables schema.tables old new t } := by
  have put := Tidy.put (keeps_erase old schema tidy) new rooted database
  constructor
  · exact List.pairwise_map.2 put.ordered
  · intro pair known
    obtain ⟨before, member, rfl⟩ := List.mem_map.1 known
    exact (put.rooted before member).retargeted old new

theorem keeps_renameTable (old new : String) : (renameTable old new).Keeps Tidy := by
  intro schema tidy
  by_cases refused : (schema.tables.has new || schema.views.has new) = true ∨
      schema.tables.get? old = none
  · obtain ⟨cause, unchanged⟩ := renameTable_run_of_refused refused
    rw [unchanged]
    exact tidy
  · rw [not_or, Bool.not_eq_true, ← Ne, Option.ne_none_iff_exists'] at refused
    obtain ⟨unused, t, found⟩ := refused
    have rooted := tidy.rooted _ (mem_of_get? found)
    have kept := rooted.run (.rename new) schema.database
    rw [renameTable_run unused found]
    change ((Alteration.rename new).run (t, schema.database)).2.1.Rooted at kept
    generalize (Alteration.rename new).run (t, schema.database) = ran at kept ⊢
    rcases ran with ⟨_ | _, t', database⟩
    · exact Tidy.put (keeps_erase old schema tidy) old kept database
    · exact tidy.renamed kept old new database

theorem keeps_discoverTables (names : List String) :
    (Discovery.discoverTables names).Keeps Tidy := by
  induction names with
  | nil => exact keeps_pure _
  | cons name names ih =>
      intro schema tidy
      rw [Discovery.discoverTables, ExceptT.run_bind_eq, run_onDatabase]
      rcases found : (Discovery.discoverTable name).run schema.database with ⟨_ | t, database⟩
      · exact ⟨tidy.ordered, tidy.rooted⟩
      · have kept := (keeps_addTable (.discoverTable found)).bind fun _ => ih
        exact kept { schema with database } ⟨tidy.ordered, tidy.rooted⟩

theorem keeps_discover : Discovery.discover.Keeps Tidy := by
  refine keeps_get_bind fun before tidy => ?_
  refine Keeps.bind (keeps_onDatabase _) (fun response => ?_) before tidy
  refine keeps_get_bind fun schema unemptied => ?_
  have emptied : Tidy { schema with tables := [], views := [] } :=
    ⟨List.Pairwise.nil, by simp⟩
  refine Keeps.bind (keeps_set emptied) (fun _ => ?_) schema unemptied
  refine (keeps_discoverTables _).attempt.bind fun outcome => ?_
  cases outcome with
  | ok _ => exact keeps_pure _
  | error cause =>
      exact Keeps.bind (fun _ _ => ⟨tidy.ordered, tidy.rooted⟩) fun _ => keeps_throw cause

/-- The operations on a schema. -/
inductive Operation where
  | addTable (t : Table)
  | addView (v : View)
  | alterTable (name : String) (operation : Table.Operation)
  | changeView (name : String) (change : View → Action View)
  | createAll
  | dropAll
  | dropTable (name : String)
  | renameTable (old new : String)
  | discover
  /-- Anything that is done with the database alone. -/
  | onDatabase (action : Action Unit)

def Operation.session : Operation → Session Unit
  | .addTable t => Schema.addTable t
  | .addView v => Schema.addView v
  | .alterTable name operation => Schema.alterTable name operation.alteration
  | .changeView name change => Schema.changeView name change
  | .createAll => Schema.createAll
  | .dropAll => Schema.dropAll
  | .dropTable name => Schema.dropTable name
  | .renameTable old new => Schema.renameTable old new
  | .discover => Discovery.discover
  | .onDatabase action => Session.onDatabase action

/-- The tables that an operation brings into a schema. -/
def Operation.Brings : Operation → Table → Prop
  | .addTable t => (· = t)
  | _ => fun _ => False

/-- The schemas that programs can have: one without tables, then any operations, whether these
succeed or fail.  The tables that are added are such as programs can have. -/
inductive Reached : Schema → Prop
  | new (database : Database) : Reached { database }
  | operate {schema : Schema} (before : Reached schema) (operation : Operation)
      (brought : ∀ t, operation.Brings t → t.Reached) :
      Reached (operation.session.run schema).2

theorem Reached.tidy (reached : schema.Reached) : schema.Tidy := by
  induction reached with
  | new database => exact ⟨List.Pairwise.nil, by simp⟩
  | operate before operation brought ih =>
      cases operation with
      | addTable t => exact keeps_addTable (brought t rfl).rooted _ ih
      | addView v => exact keeps_addView v _ ih
      | alterTable name operation => exact keeps_alterTable name operation _ ih
      | changeView name change => exact keeps_changeView name change _ ih
      | createAll => exact keeps_createAll _ ih
      | dropAll => exact keeps_dropAll _ ih
      | dropTable name => exact keeps_dropTable name _ ih
      | renameTable old new => exact keeps_renameTable old new _ ih
      | discover => exact keeps_discover _ ih
      | onDatabase action => exact keeps_onDatabase action _ ih

end Schema

/-! ## Failed operations -/

/-- A plan that fails, or a refusal, leaves the table. -/
theorem Table.runPlan_error {t t' : Table} {db db' : Database} {plan : Outcome Table.Plan}
    {cause : Fault} (failed : runPlan plan t db = (.error cause, t', db')) : t' = t := by
  cases plan with
  | error fault =>
      cases failed
      rfl
  | ok plan =>
      obtain ⟨statements, after⟩ := plan
      cases statements with
      | none => cases failed
      | some statements =>
          simp only [runPlan, Plan.run] at failed
          generalize (Database.changeSchema statements).run db = served at failed
          rcases served with ⟨_ | _, _⟩
          · cases failed
            rfl
          · cases failed

theorem Table.Rooted.failed {t t' : Table} (rooted : t.Rooted) {operation : Table.Operation}
    {db db' : Database} {cause : Fault}
    (failed : operation.alteration.run (t, db) = (.error cause, t', db')) : t' = t := by
  rw [operation.run_eq rooted] at failed
  exact Table.runPlan_error failed

namespace Schema

variable {schema after : Schema} {cause : Fault}

/-- Altering a table in place, if it fails, changes nothing in the schema. -/
theorem Tidy.alterTable_failed (tidy : schema.Tidy) {name : String} {operation : Table.Operation}
    (failed : (alterTable name operation.alteration).run schema = (.error cause, after)) :
    after.tables = schema.tables ∧ after.views = schema.views := by
  cases found : schema.tables.get? name with
  | none =>
      rw [alterTable_run_of_none found] at failed
      cases failed
      exact ⟨rfl, rfl⟩
  | some t =>
      have rooted := tidy.rooted _ (mem_of_get? found)
      rw [alterTable_run found] at failed
      rcases ran : operation.alteration.run (t, schema.database) with ⟨outcome, t', database⟩
      rw [ran] at failed
      cases failed
      have same := rooted.failed ran
      subst same
      exact ⟨tidy.ordered.put_self found, rfl⟩

/-- It makes no difference whether a table is altered in its place or a copy of it is put there
after the alteration succeeded. -/
theorem Tidy.changeTable_altered (tidy : schema.Tidy) (name : String)
    (operation : Table.Operation) :
    (changeTable name (Table.altered operation.alteration)).run schema =
      (alterTable name operation.alteration).run schema := by
  cases found : schema.tables.get? name with
  | none => rw [changeTable, requireTable_bind_of_none found, alterTable_run_of_none found]
  | some t =>
      have rooted := tidy.rooted _ (mem_of_get? found)
      have altered : (Session.onDatabase (Table.altered operation.alteration t)).run schema =
          let ran := operation.alteration.run (t, schema.database)
          (ran.1.map fun _ => ran.2.1, { schema with database := ran.2.2 }) := rfl
      rw [changeTable, requireTable_bind found, ExceptT.run_bind_eq, altered, alterTable_run found]
      rcases ran : operation.alteration.run (t, schema.database) with ⟨_ | _, t', database⟩
      · have same := rooted.failed ran
        subst same
        simp only [Except.map, tidy.ordered.put_self found]
      · rfl

theorem Tidy.dropTable_failed (tidy : schema.Tidy) {name : String}
    (failed : (dropTable name).run schema = (.error cause, after)) :
    after.tables = schema.tables ∧ after.views = schema.views := by
  rw [dropTable, ExceptT.run_bind_eq] at failed
  have altered : (alterTable name Table.Operation.drop.alteration).run schema =
      (.error cause, after) := by
    change (alterTable name .drop).run schema = _
    rcases dropped : (alterTable name .drop).run schema with ⟨_ | _, between⟩
    · rwa [dropped] at failed
    · rw [dropped] at failed
      cases failed
  exact tidy.alterTable_failed altered

theorem Tidy.renameTable_failed (tidy : schema.Tidy) {old new : String}
    (failed : (renameTable old new).run schema = (.error cause, after)) :
    after.tables = schema.tables ∧ after.views = schema.views := by
  by_cases refused : (schema.tables.has new || schema.views.has new) = true ∨
      schema.tables.get? old = none
  · obtain ⟨cause, unchanged⟩ := renameTable_run_of_refused refused
    rw [unchanged] at failed
    cases failed
    exact ⟨rfl, rfl⟩
  · rw [not_or, Bool.not_eq_true, ← Ne, Option.ne_none_iff_exists'] at refused
    obtain ⟨unused, t, found⟩ := refused
    have rooted := tidy.rooted _ (mem_of_get? found)
    rw [renameTable_run unused found] at failed
    rcases ran : (Alteration.rename new).run (t, schema.database) with ⟨_ | _, t', database⟩
    · rw [ran] at failed
      cases failed
      have ran : (Table.Operation.rename new).alteration.run (t, schema.database) = _ := ran
      have same := rooted.failed ran
      subst same
      exact ⟨tidy.ordered.put_erase found, rfl⟩
    · rw [ran] at failed
      cases failed

/-- An operation that ends in a fault has changed nothing in memory: not the table it works on,
and no table or view of the schema when a table is dropped or renamed.  Whatever the database
answered, the operation gives its own changes back. -/
theorem failed_operations_change_nothing :
    (∀ t : Table, t.Reached → ∀ (operation : Table.Operation) (db : Database) cause t' db',
      operation.alteration.run (t, db) = (.error cause, t', db') → t' = t) ∧
    (∀ schema : Schema, schema.Reached → ∀ (name : String) cause after,
      (dropTable name).run schema = (.error cause, after) →
        after.tables = schema.tables ∧ after.views = schema.views) ∧
    (∀ schema : Schema, schema.Reached → ∀ (old new : String) cause after,
      (renameTable old new).run schema = (.error cause, after) →
        after.tables = schema.tables ∧ after.views = schema.views) := by
  refine ⟨?_, ?_, ?_⟩
  · intro t reached operation db cause t' db' failed
    exact reached.rooted.failed failed
  · intro schema reached name cause after failed
    exact reached.tidy.dropTable_failed failed
  · intro schema reached old new cause after failed
    exact reached.tidy.renameTable_failed failed

section Pets

/-- A database whose server refuses the next change of a table. -/
def stubborn : Database where
  workspace := { dialect := .ansi, functions := {} }
  recorder := Recorder.scripted {} "ALTER" (.error (.connection "denied"))

/-- A table in the database. -/
def pets : Table :=
  let declared := (Table.Operation.define { key := "name", kind := .text }).alteration.run
    (.new .ansi "pets", stubborn)
  (Table.Operation.create.alteration.run (declared.2.1, stubborn)).2.1

theorem pets_reached : pets.Reached :=
  .operate (.operate (.new _ _) _ _) _ _

/-- A schema with one table. -/
def household : Schema :=
  ((Operation.addTable pets).session.run { database := stubborn }).2

theorem household_reached : household.Reached := by
  refine .operate (.new stubborn) (.addTable pets) fun t same => ?_
  exact same ▸ pets_reached

/-- The server refuses to add a column and to rename the table, and it stays as it was. -/
theorem household_unchanged :
    let age : ColumnSpec := { key := "age", kind := .int, isKey := true }
    let extended := (Table.Operation.extend age).alteration.run (pets, stubborn)
    let renamed := (renameTable "pets" "animals").run household
    extended.1 = .error (.connection "denied") ∧ extended.2.1 = pets ∧
      renamed.1 = .error (.connection "denied") ∧ renamed.2.tables = household.tables := by
  intro age extended renamed
  obtain ⟨table, -, rename⟩ := failed_operations_change_nothing
  have denied : extended.1 = .error (.connection "denied") := by decide +kernel
  have refused : renamed.1 = .error (.connection "denied") := by decide +kernel
  refine ⟨denied, ?_, refused, ?_⟩
  · exact table pets pets_reached _ _ _ _ _ (Prod.ext denied rfl)
  · exact (rename household household_reached _ _ _ _ (Prod.ext refused rfl)).1

end Pets

end Schema

end RowQuery
