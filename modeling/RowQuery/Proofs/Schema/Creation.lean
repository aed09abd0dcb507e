import RowQuery.Proofs.Database.Acceptance
import RowQuery.Proofs.Schema.FailedOperation

/-!
# Creating and dropping everything

The tables and views of a schema are created one after the other, tables first and both in the
order of their names, up to the first that fails.  They are dropped in the same order, but
views first.
-/

namespace RowQuery

namespace Table

open Database

theorem Plan.run_eq (p : Plan) (t : Table) (db : Database) :
    p.run t db =
      match (carryOut (.ok p.statements)).run db with
      | (.ok _, db) => (.ok (), p.after, db)
      | (.error cause, db) => (.error cause, t, db) := by
  obtain ⟨_ | statements, after⟩ := p
  · rfl
  · rfl

theorem planned_ok (t : Table) (statements : List String) (after : Table) :
    t.planned (.ok statements) after = .ok ⟨t.issued statements, after⟩ := by
  unfold planned issued
  split <;> rfl

end Table

namespace Schema

open Session Database

/-- A table or a view under its name. -/
inductive Object where
  | table (name : String) (t : Table)
  | view (name : String) (v : View)

namespace Object

/-- What it is called in the database. -/
def name : Object → String
  | table _ t => t.name
  | view _ v => v.name

/-- What creates it, unless it is in the database. -/
def creation (d : Dialect) : Object → Intent
  | table _ t =>
      if t.isCreated then .ok none
      else do
        t.ensureLive
        let statements ← d.createTable t
        .ok (some statements)
  | view _ v =>
      if v.table.isCreated then .ok none
      else do
        v.table.ensureLive
        .ok (some [d.createView v.name v.selectSql])

/-- What drops it, if it is in the database. -/
def deletion (d : Dialect) : Object → Intent
  | table _ t => do
      t.ensureLive
      .ok (if t.isCreated then some (d.dropTable t) else none)
  | view _ v => do
      v.table.ensureLive
      .ok (if v.table.isCreated then some [d.dropView v.name] else none)

def created : Object → Object
  | table name t => table name { t with state := .created }
  | view name v => view name (v.withState .created)

end Object

def tableObject (entry : String × Table) : Object :=
  .table entry.1 entry.2

def viewObject (entry : String × View) : Object :=
  .view entry.1 entry.2

/-- The tables and views in the order in which they are created. -/
def objects (schema : Schema) : List Object :=
  schema.tables.map tableObject ++ schema.views.map viewObject

variable {schema : Schema} {d : Dialect}

/-! ## Creating one object -/

def markTable (entry : String × Table) : String × Table :=
  (entry.1, { entry.2 with state := .created })

def markView (entry : String × View) : String × View :=
  (entry.1, entry.2.withState .created)

/-- A table that is not in the database yet. -/
theorem create_run {t : Table} (rooted : t.Rooted) (absent : t.isCreated = false) (name : String)
    (db : Database) :
    Alteration.create.run (t, db) =
      match (carryOut ((tableObject (name, t)).creation db.workspace.dialect)).run db with
      | (.ok _, db) => (.ok (), { t with state := .created }, db)
      | (.error cause, db) => (.error cause, t, db) := by
  have ran := Table.Operation.create.run_eq rooted db
  change Alteration.create.run (t, db) = _ at ran
  rw [ran, Table.Operation.plan, tableObject, Object.creation, absent]
  cases t.ensureLive with
  | error cause => rfl
  | ok _ =>
      cases db.workspace.dialect.createTable t with
      | error cause => rfl
      | ok statements =>
          exact Table.Plan.run_eq ⟨some statements, { t with state := .created }⟩ t db

theorem createView_run {v : View} (absent : v.table.isCreated = false) (name : String)
    (db : Database) :
    (View.create v).run db =
      match (carryOut ((viewObject (name, v)).creation db.workspace.dialect)).run db with
      | (.ok _, db) => (.ok (v.withState .created), db)
      | (.error cause, db) => (.error cause, db) := by
  rw [View.create, viewObject, Object.creation]
  simp only [absent, Bool.false_eq_true, if_false]
  cases live : v.table.ensureLive with
  | error cause => rfl
  | ok _ =>
      rw [ExceptT.run_bind_of_ok (ExceptT.run_liftExcept _)]
      have asked : Action.dialect.run db = (.ok db.workspace.dialect, db) := rfl
      rw [ExceptT.run_bind_of_ok asked, ExceptT.run_bind_eq]
      generalize [db.workspace.dialect.createView v.name v.selectSql] = statements
      have planned : (do (Except.ok () : Outcome Unit); Except.ok (some statements)) =
          (Except.ok (some statements) : Intent) := rfl
      rw [planned, carryOut_run_some]
      rcases (changeSchema statements).run db with ⟨_ | _, db⟩ <;> rfl

theorem changeView_run {name : String} {v : View} (found : schema.views.get? name = some v)
    (change : View → Action View) :
    (changeView name change).run schema =
      match (change v).run schema.database with
      | (.ok v, database) => (.ok (), { schema with database, views := schema.views.put name v })
      | (.error cause, database) => (.error cause, { schema with database }) := by
  have asked : (get : Session Schema).run schema = (.ok schema, schema) := rfl
  rw [changeView, ExceptT.run_bind_of_ok asked, found]
  dsimp only
  rw [ExceptT.run_bind_eq, run_onDatabase]
  rcases (change v).run schema.database with ⟨_ | _, database⟩ <;> rfl

/-! ## Creating one after the other -/

/-- A loop that carries a plan out for each item and marks the items in their place. -/
theorem run_forIn_carry {α : Type} {intent : Object → Intent} {object : α → Object}
    {body : α → PUnit → Session (ForInStep PUnit)} (mark : α → α)
    (place : List α → Database → Schema) (P : List α → Prop)
    (marks : ∀ front a rest, P (front ++ a :: rest) → P (front ++ mark a :: rest))
    (each : ∀ front a rest db, P (front ++ a :: rest) → db.workspace.dialect = d →
      (body a ⟨⟩).run (place (front ++ a :: rest) db) =
        match (carryOut (intent (object a))).run db with
        | (.ok _, db) => (.ok (.yield ⟨⟩), place (front ++ mark a :: rest) db)
        | (.error cause, db) => (.error cause, place (front ++ a :: rest) db))
    (front : List α) {items : List α} (holds : P (front ++ items)) {db : Database}
    (same : db.workspace.dialect = d) :
    let ran := carryEach intent (items.map object) db
    ∃ done left, items = done ++ left ∧ ran.2.1 = left.map object ∧
      (forIn items ⟨⟩ body : Session PUnit).run (place (front ++ items) db) =
        (ran.1.map fun _ => ⟨⟩, place (front ++ (done.map mark ++ left)) ran.2.2) := by
  -- The front has the items that are marked already.
  induction items generalizing front db with
  | nil => exact ⟨[], [], rfl, rfl, rfl⟩
  | cons a rest ih =>
      have kept := carryOut_workspace (intent (object a)) db
      rw [List.forIn_cons, List.map_cons, carryEach, ExceptT.run_bind_eq,
        each front a rest db holds same]
      generalize (carryOut (intent (object a))).run db = ran at kept ⊢
      rcases ran with ⟨_ | _, between⟩
      · exact ⟨[], a :: rest, rfl, rfl, rfl⟩
      · have marked := marks front a rest holds
        rw [← List.singleton_append, ← List.append_assoc] at marked
        obtain ⟨done, left, rfl, remains, went⟩ := ih _ marked ((congrArg _ kept).trans same)
        refine ⟨a :: done, left, rfl, remains, ?_⟩
        simpa using went

theorem ordered_mark {α : Type} {front rest : Keyed α} {entry : String × α} {other : α}
    (ordered : Keyed.Ordered (front ++ entry :: rest)) :
    Keyed.Ordered (front ++ (entry.1, other) :: rest) := by
  have keys : ∀ entries : Keyed α,
      entries.Ordered ↔ (entries.map Prod.fst).Pairwise (· < ·) := by
    intro entries
    rw [List.pairwise_map, Keyed.Ordered]
  rw [keys] at ordered ⊢
  simpa using ordered

/-- One round of the loop over the tables. -/
def createTableStep (entry : String × Table) (_ : PUnit) : Session (ForInStep PUnit) := do
  if !entry.2.isCreated then alterTable entry.1 .create
  return .yield ⟨⟩

/-- One round of the loop over the views. -/
def createViewStep (entry : String × View) (_ : PUnit) : Session (ForInStep PUnit) := do
  if !entry.2.table.isCreated then changeView entry.1 View.create
  return .yield ⟨⟩

theorem createAll_eq : createAll = (do
    forIn (← get).tables ⟨⟩ createTableStep
    forIn (← get).views ⟨⟩ createViewStep
    pure ()) :=
  rfl

theorem createTables_run {tables : Keyed Table} (ordered : tables.Ordered)
    (rooted : ∀ entry ∈ tables, entry.2.Rooted) (views : Keyed View) {db : Database}
    (same : db.workspace.dialect = d) :
    let ran := carryEach (Object.creation d) (tables.map tableObject) db
    ∃ done left, tables = done ++ left ∧ ran.2.1 = left.map tableObject ∧
      (forIn tables ⟨⟩ createTableStep : Session PUnit).run ⟨db, tables, views⟩ =
        (ran.1.map fun _ => ⟨⟩, ⟨ran.2.2, done.map markTable ++ left, views⟩) := by
  refine run_forIn_carry markTable (fun tables db => ⟨db, tables, views⟩)
    (fun tables => Keyed.Ordered tables ∧ ∀ entry ∈ tables, entry.2.Rooted)
    ?_ ?_ [] ⟨ordered, rooted⟩ same
  · rintro front entry rest ⟨ordered, rooted⟩
    refine ⟨ordered_mark ordered, ?_⟩
    rw [List.forall_mem_append, List.forall_mem_cons] at rooted ⊢
    exact ⟨rooted.1, rooted.2.1.of_eq rfl rfl rfl, rooted.2.2⟩
  · rintro front ⟨name, t⟩ rest db ⟨ordered, rooted⟩ same
    have own : t.Rooted := rooted (name, t) (by simp)
    rw [createTableStep]
    cases present : t.isCreated with
    | true =>
        have marked : markTable (name, t) = (name, t) := by
          have created : t.state = .created := by simpa using Table.isCreated_iff.1 present
          rw [markTable, ← created]
        have planned : (tableObject (name, t)).creation d = .ok none := by
          simp [tableObject, Object.creation, present]
        rw [planned, marked]
        rfl
    | false =>
        have found := ordered.get?_between
        rw [Bool.not_false, if_pos rfl, ExceptT.run_bind_eq, alterTable_run found,
          create_run own present name db, same]
        rcases (carryOut ((tableObject (name, t)).creation d)).run db with ⟨_ | _, db⟩
        · dsimp only
          rw [ordered.put_between]
        · dsimp only
          rw [ordered.put_between]
          rfl

theorem createViews_run {views : Keyed View} (ordered : views.Ordered) (tables : Keyed Table)
    {db : Database} (same : db.workspace.dialect = d) :
    let ran := carryEach (Object.creation d) (views.map viewObject) db
    ∃ done left, views = done ++ left ∧ ran.2.1 = left.map viewObject ∧
      (forIn views ⟨⟩ createViewStep : Session PUnit).run ⟨db, tables, views⟩ =
        (ran.1.map fun _ => ⟨⟩, ⟨ran.2.2, tables, done.map markView ++ left⟩) := by
  refine run_forIn_carry markView (fun views db => ⟨db, tables, views⟩)
    (fun views => Keyed.Ordered views) ?_ ?_ [] ordered same
  · exact fun front entry rest ordered => ordered_mark ordered
  · rintro front ⟨name, v⟩ rest db ordered same
    rw [createViewStep]
    cases present : v.table.isCreated with
    | true =>
        have marked : markView (name, v) = (name, v) := by
          have created : v.table.state = .created := by simpa using Table.isCreated_iff.1 present
          rw [markView, View.withState, ← created]
        have planned : (viewObject (name, v)).creation d = .ok none := by
          simp [viewObject, Object.creation, present]
        rw [planned, marked]
        rfl
    | false =>
        have found := ordered.get?_between
        rw [Bool.not_false, if_pos rfl, ExceptT.run_bind_eq, changeView_run found,
          createView_run present name db, same]
        rcases (carryOut ((viewObject (name, v)).creation d)).run db with ⟨_ | _, db⟩
        · rfl
        · dsimp only
          rw [ordered.put_between]
          rfl

/-- The second loop, after the first. -/
theorem createViews_bind_run {views : Keyed View} (ordered : views.Ordered) (tables : Keyed Table)
    {db : Database} (same : db.workspace.dialect = d) :
    let ran := carryEach (Object.creation d) (views.map viewObject) db
    ∃ done left, views = done ++ left ∧ ran.2.1 = left.map viewObject ∧
      (do forIn (← get).views ⟨⟩ createViewStep; pure () : Session Unit).run ⟨db, tables, views⟩ =
        (ran.1, ⟨ran.2.2, tables, done.map markView ++ left⟩) := by
  obtain ⟨done, left, split, remains, went⟩ := createViews_run ordered tables same
  refine ⟨done, left, split, remains, ?_⟩
  change ((forIn views ⟨⟩ createViewStep : Session PUnit) >>= fun _ => pure ()).run _ = _
  rw [ExceptT.run_bind_eq, went]
  generalize carryEach _ _ _ = ran
  rcases ran with ⟨_ | _, _⟩ <;> rfl

/-- Creating everything carries out a plan for each table and view, up to the first that
fails. -/
theorem createAll_run (tables : schema.tables.Ordered) (views : schema.views.Ordered)
    (rooted : ∀ entry ∈ schema.tables, entry.2.Rooted)
    (same : schema.database.workspace.dialect = d) :
    let ran := carryEach (Object.creation d) schema.objects schema.database
    ∃ done, schema.objects = done ++ ran.2.1 ∧
      (createAll.run schema).1 = ran.1 ∧ (createAll.run schema).2.database = ran.2.2 ∧
      (createAll.run schema).2.objects = done.map Object.created ++ ran.2.1 := by
  obtain ⟨done, left, split, remains, went⟩ := createTables_run tables rooted schema.views same
  have kept := carryEach_workspace (Object.creation d) (schema.tables.map tableObject)
    schema.database
  have finished (succeeded : (carryEach (Object.creation d) (schema.tables.map tableObject)
      schema.database).1 = .ok ()) := (carryEach_served_ok (Prod.ext succeeded rfl)).1
  have asked : (get : Session Schema).run schema = (.ok schema, schema) := rfl
  rw [createAll_eq, ExceptT.run_bind_of_ok asked, ExceptT.run_bind_eq, went, objects,
    carryEach_append]
  generalize carryEach _ (schema.tables.map tableObject) _ = ran at kept remains finished ⊢
  obtain ⟨cause | _, rest, between⟩ := ran
  · obtain rfl : rest = left.map tableObject := remains
    refine ⟨done.map tableObject, ?_, rfl, rfl, ?_⟩
    · rw [split, List.map_append, List.append_assoc]
    · simp [Except.map, objects, Object.created, tableObject, markTable, Function.comp_def]
  · obtain rfl : left = [] := List.map_eq_nil_iff.1 (remains.symm.trans (finished rfl))
    obtain ⟨done', left', split', remains', went'⟩ := createViews_bind_run views
      (done.map markTable ++ []) ((congrArg _ kept).trans same)
    simp only [Except.map, went']
    refine ⟨done.map tableObject ++ done'.map viewObject, ?_, trivial, trivial, ?_⟩
    · rw [remains', split, List.append_nil, List.append_assoc, ← List.map_append, ← split']
    · rw [remains']
      simp [objects, Object.created, tableObject, viewObject, markTable, markView,
        Function.comp_def]

/-! ## Dropping one after the other -/

/-- The views and tables in the order in which they are dropped. -/
def droppings (schema : Schema) : List Object :=
  schema.views.map viewObject ++ schema.tables.map tableObject

theorem dropTable_run {t : Table} (rooted : t.Rooted) (name : String) (db : Database) :
    t.drop.run db =
      match (carryOut ((tableObject (name, t)).deletion db.workspace.dialect)).run db with
      | (.ok _, db) => (.ok { t with state := .dropped }, db)
      | (.error cause, db) => (.error cause, db) := by
  have ran := Table.Operation.drop.run_eq rooted db
  change Alteration.drop.run (t, db) = _ at ran
  change (let ran := Alteration.drop.run (t, db); (ran.1.map fun _ => ran.2.1, ran.2.2)) = _
  rw [ran, Table.Operation.plan, tableObject, Object.deletion]
  cases t.ensureLive with
  | error cause => rfl
  | ok _ =>
      change (let ran := Table.runPlan (t.planned (.ok (db.workspace.dialect.dropTable t))
        { t with state := .dropped }) t db; (ran.1.map fun _ => ran.2.1, ran.2.2)) = _
      rw [Table.planned_ok, Table.runPlan, Table.Plan.run_eq]
      change _ = match (carryOut (.ok (t.issued (db.workspace.dialect.dropTable t)))).run db with
        | (Except.ok _, db) => (Except.ok { t with state := .dropped }, db)
        | (Except.error cause, db) => (Except.error cause, db)
      rcases (carryOut _).run db with ⟨_ | _, db⟩ <;> rfl

theorem dropView_run (v : View) (name : String) (db : Database) :
    v.drop.run db =
      match (carryOut ((viewObject (name, v)).deletion db.workspace.dialect)).run db with
      | (.ok _, db) => (.ok (v.withState .dropped), db)
      | (.error cause, db) => (.error cause, db) := by
  rw [View.drop, viewObject, Object.deletion]
  cases v.table.ensureLive with
  | error cause => rfl
  | ok _ =>
      rw [ExceptT.run_bind_of_ok (ExceptT.run_liftExcept _)]
      have planned (statements : Option (List String)) :
          (do (Except.ok () : Outcome Unit); Except.ok statements) =
            (Except.ok statements : Intent) := rfl
      rw [planned]
      cases v.table.isCreated with
      | false => rfl
      | true =>
          have asked : Action.dialect.run db = (.ok db.workspace.dialect, db) := rfl
          rw [if_pos rfl, if_pos rfl, ExceptT.run_bind_of_ok asked, ExceptT.run_bind_eq,
            carryOut_run_some]
          rcases (changeSchema _).run db with ⟨_ | _, db⟩ <;> rfl

/-- A loop that takes each item out of its place and carries a plan out for it. -/
theorem run_forIn_take {α : Type} {intent : Object → Intent} {object : α → Object}
    {body : α → PUnit → Session (ForInStep PUnit)} (place : List α → Database → Schema)
    {items : List α}
    (each : ∀ a ∈ items, ∀ rest db, db.workspace.dialect = d →
      (body a ⟨⟩).run (place (a :: rest) db) =
        let ran := (carryOut (intent (object a))).run db
        (ran.1.map fun _ => .yield ⟨⟩, place rest ran.2))
    {db : Database} (same : db.workspace.dialect = d) :
    let ran := carryEach intent (items.map object) db
    ∃ behind, ran.2.1.tail = behind.map object ∧
      (forIn items ⟨⟩ body : Session PUnit).run (place items db) =
        (ran.1.map fun _ => ⟨⟩, place behind ran.2.2) := by
  induction items generalizing db with
  | nil => exact ⟨[], rfl, rfl⟩
  | cons a rest ih =>
      rw [List.forall_mem_cons] at each
      obtain ⟨head, each⟩ := each
      have workspace := carryOut_workspace (intent (object a)) db
      rw [List.map_cons, carryEach, List.forIn_cons, ExceptT.run_bind_eq, head rest db same]
      generalize (carryOut (intent (object a))).run db = ran at workspace ⊢
      obtain ⟨cause | _, between⟩ := ran
      · exact ⟨rest, rfl, rfl⟩
      · exact ih each ((congrArg _ workspace).trans same)

/-- One round of the loop over the views. -/
def dropViewStep (entry : String × View) (_ : PUnit) : Session (ForInStep PUnit) := do
  modifyViews (Keyed.erase entry.1)
  let _ ← onDatabase entry.2.drop
  return .yield ⟨⟩

/-- One round of the loop over the tables. -/
def dropTableStep (entry : String × Table) (_ : PUnit) : Session (ForInStep PUnit) := do
  modifyTables (Keyed.erase entry.1)
  let _ ← onDatabase entry.2.drop
  return .yield ⟨⟩

theorem dropAll_eq : dropAll = (do
    forIn (← get).views ⟨⟩ dropViewStep
    forIn (← get).tables ⟨⟩ dropTableStep
    pure ()) :=
  rfl

theorem dropViewStep_run (entry : String × View) (schema : Schema) :
    (dropViewStep entry ⟨⟩).run schema =
      let ran := entry.2.drop.run schema.database
      (ran.1.map fun _ => .yield ⟨⟩,
        { schema with database := ran.2, views := schema.views.erase entry.1 }) := by
  change ((onDatabase entry.2.drop >>= fun _ => pure (ForInStep.yield PUnit.unit) :
    Session (ForInStep PUnit))).run { schema with views := schema.views.erase entry.1 } = _
  rw [ExceptT.run_bind_eq, run_onDatabase]
  rcases entry.2.drop.run schema.database with ⟨_ | _, database⟩ <;> rfl

theorem dropTableStep_run (entry : String × Table) (schema : Schema) :
    (dropTableStep entry ⟨⟩).run schema =
      let ran := entry.2.drop.run schema.database
      (ran.1.map fun _ => .yield ⟨⟩,
        { schema with database := ran.2, tables := schema.tables.erase entry.1 }) := by
  change ((onDatabase entry.2.drop >>= fun _ => pure (ForInStep.yield PUnit.unit) :
    Session (ForInStep PUnit))).run { schema with tables := schema.tables.erase entry.1 } = _
  rw [ExceptT.run_bind_eq, run_onDatabase]
  rcases entry.2.drop.run schema.database with ⟨_ | _, database⟩ <;> rfl

theorem dropViews_run (views : Keyed View) (tables : Keyed Table) {db : Database}
    (same : db.workspace.dialect = d) :
    let ran := carryEach (Object.deletion d) (views.map viewObject) db
    ∃ behind, ran.2.1.tail = behind.map viewObject ∧
      (forIn views ⟨⟩ dropViewStep : Session PUnit).run ⟨db, tables, views⟩ =
        (ran.1.map fun _ => ⟨⟩, ⟨ran.2.2, tables, behind⟩) := by
  refine run_forIn_take (fun views db => ⟨db, tables, views⟩) ?_ same
  rintro ⟨name, v⟩ - rest db same
  rw [dropViewStep_run, dropView_run v name, same]
  rcases (carryOut ((viewObject (name, v)).deletion d)).run db with ⟨_ | _, database⟩ <;>
    simp [Keyed.erase, Except.map]

theorem dropTables_run {tables : Keyed Table} (rooted : ∀ entry ∈ tables, entry.2.Rooted)
    (views : Keyed View) {db : Database} (same : db.workspace.dialect = d) :
    let ran := carryEach (Object.deletion d) (tables.map tableObject) db
    ∃ behind, ran.2.1.tail = behind.map tableObject ∧
      (forIn tables ⟨⟩ dropTableStep : Session PUnit).run ⟨db, tables, views⟩ =
        (ran.1.map fun _ => ⟨⟩, ⟨ran.2.2, behind, views⟩) := by
  refine run_forIn_take (fun tables db => ⟨db, tables, views⟩) ?_ same
  rintro ⟨name, t⟩ member rest db same
  rw [dropTableStep_run, dropTable_run (rooted _ member) name, same]
  rcases (carryOut ((tableObject (name, t)).deletion d)).run db with ⟨_ | _, database⟩ <;>
    simp [Keyed.erase, Except.map]

/-- Dropping everything carries out a plan for each view and table, up to the first that fails,
and takes these out of the schema, the failing one too. -/
theorem dropAll_takes (rooted : ∀ entry ∈ schema.tables, entry.2.Rooted)
    (same : schema.database.workspace.dialect = d) :
    let ran := carryEach (Object.deletion d) schema.droppings schema.database
    (dropAll.run schema).1 = ran.1 ∧ (dropAll.run schema).2.database = ran.2.2 ∧
      (dropAll.run schema).2.droppings = ran.2.1.tail := by
  obtain ⟨behind, remains, went⟩ := dropViews_run schema.views schema.tables same
  have workspace := carryEach_workspace (Object.deletion d)
    (schema.views.map viewObject) schema.database
  have finished (succeeded : (carryEach (Object.deletion d) (schema.views.map viewObject)
      schema.database).1 = .ok ()) := (carryEach_served_ok (Prod.ext succeeded rfl)).1
  have some (cause : Fault) (failed : (carryEach (Object.deletion d) (schema.views.map viewObject)
      schema.database).1 = .error cause) := carryEach_served_error (Prod.ext failed rfl)
  have asked (schema : Schema) : (get : Session Schema).run schema = (.ok schema, schema) := rfl
  rw [dropAll_eq, ExceptT.run_bind_of_ok (asked schema), ExceptT.run_bind_eq, went, droppings,
    carryEach_append]
  generalize carryEach _ (schema.views.map viewObject) _ = ran at remains workspace finished some ⊢
  obtain ⟨cause | _, left, between⟩ := ran
  · obtain ⟨-, object, rest, -, -, -, split, -⟩ := some cause rfl
    obtain rfl : left = object :: rest := split
    exact ⟨rfl, rfl, congrArg (· ++ schema.tables.map tableObject) remains.symm⟩
  · obtain rfl : left = [] := finished rfl
    obtain rfl : behind = [] := List.map_eq_nil_iff.1 remains.symm
    obtain ⟨behind, remains, went⟩ :=
      dropTables_run rooted [] ((congrArg _ workspace).trans same)
    simp only [Except.map]
    rw [ExceptT.run_bind_of_ok (asked _), ExceptT.run_bind_eq, went]
    cases (carryEach _ (schema.tables.map tableObject) between).1 <;>
      exact ⟨rfl, rfl, remains.symm⟩
theorem dropAll_run (rooted : ∀ entry ∈ schema.tables, entry.2.Rooted)
    (same : schema.database.workspace.dialect = d) :
    let ran := carryEach (Object.deletion d) schema.droppings schema.database
    (dropAll.run schema).1 = ran.1 ∧ (dropAll.run schema).2.database = ran.2.2 := by
  obtain ⟨outcome, database, -⟩ := dropAll_takes rooted same
  exact ⟨outcome, database⟩

/-! ## Views stand in the order of their names -/

/-- The views of a schema, like its tables, stand in the order of their names. -/
def Shelved (schema : Schema) : Prop :=
  schema.views.Ordered

theorem keeps_shelved_modifyTables (change : Keyed Table → Keyed Table) :
    (modifyTables change).Keeps Shelved :=
  fun _ shelved => shelved

theorem keeps_shelved_onDatabase {α : Type} (action : Action α) :
    (onDatabase action).Keeps Shelved :=
  fun _ shelved => shelved

theorem keeps_shelved_putView (name : String) (v : View) :
    (modifyViews (Keyed.put name v)).Keeps Shelved :=
  fun _ shelved => Keyed.Ordered.put shelved name v

theorem keeps_shelved_ensureUnused (name : String) : (ensureUnused name).Keeps Shelved := by
  intro schema shelved
  rw [ensureUnused_run]
  split <;> exact shelved

theorem keeps_shelved_addTable (t : Table) : (addTable t).Keeps Shelved :=
  (keeps_shelved_ensureUnused _).bind fun _ => keeps_shelved_modifyTables _

theorem keeps_shelved_alterTable (name : String) (alteration : Alteration Unit) :
    (alterTable name alteration).Keeps Shelved := by
  intro schema shelved
  cases found : schema.tables.get? name with
  | none =>
      rw [alterTable_run_of_none found]
      exact shelved
  | some t =>
      rw [alterTable_run found]
      exact shelved

theorem keeps_shelved_changeView (name : String) (change : View → Action View) :
    (changeView name change).Keeps Shelved := by
  intro schema shelved
  cases found : schema.views.get? name with
  | none =>
      have refused : (changeView name change).run schema = (.error (noTable name), schema) := by
        have asked : (get : Session Schema).run schema = (.ok schema, schema) := rfl
        rw [changeView, ExceptT.run_bind_of_ok asked, found]
        rfl
      rw [refused]
      exact shelved
  | some v =>
      rw [changeView_run found]
      rcases (change v).run schema.database with ⟨_ | v', _⟩
      · exact shelved
      · exact Keyed.Ordered.put shelved name v'

theorem keeps_shelved_createAll : createAll.Keeps Shelved := by
  rw [createAll_eq]
  refine keeps_get_bind fun schema shelved => ?_
  refine Keeps.bind (keeps_forIn (fun entry _ _ => ?_) _) (fun _ => ?_) schema shelved
  · rw [createTableStep]
    split
    · exact (keeps_shelved_alterTable _ _).bind fun _ => keeps_pure _
    · exact keeps_pure _
  · refine keeps_get_bind fun schema shelved => ?_
    refine Keeps.bind (keeps_forIn (fun entry _ _ => ?_) _) (fun _ => keeps_pure _) schema shelved
    rw [createViewStep]
    split
    · exact (keeps_shelved_changeView _ _).bind fun _ => keeps_pure _
    · exact keeps_pure _

theorem keeps_shelved_dropAll : dropAll.Keeps Shelved := by
  rw [dropAll_eq]
  refine keeps_get_bind fun schema shelved => ?_
  refine Keeps.bind (keeps_forIn (fun entry _ _ => ?_) _) (fun _ => ?_) schema shelved
  · intro schema shelved
    rw [dropViewStep_run]
    exact Keyed.Ordered.erase shelved entry.1
  · refine keeps_get_bind fun schema shelved => ?_
    refine Keeps.bind (keeps_forIn (fun entry _ _ => ?_) _) (fun _ => keeps_pure _) schema shelved
    intro schema shelved
    rw [dropTableStep_run]
    exact shelved

theorem keeps_shelved_renameTable (old new : String) : (renameTable old new).Keeps Shelved := by
  intro schema shelved
  by_cases refused : (schema.tables.has new || schema.views.has new) = true ∨
      schema.tables.get? old = none
  · obtain ⟨cause, unchanged⟩ := renameTable_run_of_refused refused
    rw [unchanged]
    exact shelved
  · rw [not_or, Bool.not_eq_true, ← Ne, Option.ne_none_iff_exists'] at refused
    obtain ⟨unused, t, found⟩ := refused
    rw [renameTable_run unused found]
    rcases (Alteration.rename new).run (t, schema.database) with ⟨_ | _, t', database⟩ <;>
      exact shelved

theorem keeps_shelved_discoverTables (names : List String) :
    (Discovery.discoverTables names).Keeps Shelved := by
  induction names with
  | nil => exact keeps_pure _
  | cons name names ih =>
      exact (keeps_shelved_onDatabase _).bind fun t => (keeps_shelved_addTable t).bind fun _ => ih

theorem keeps_shelved_discover : Discovery.discover.Keeps Shelved := by
  refine keeps_get_bind fun before shelved => ?_
  refine Keeps.bind (keeps_shelved_onDatabase _) (fun response => ?_) before shelved
  refine keeps_get_bind fun schema unemptied => ?_
  have emptied : Shelved { schema with tables := [], views := [] } := List.Pairwise.nil
  refine Keeps.bind (keeps_set emptied) (fun _ => ?_) schema unemptied
  refine (keeps_shelved_discoverTables _).attempt.bind fun outcome => ?_
  cases outcome with
  | ok _ => exact keeps_pure _
  | error cause =>
      refine Keeps.bind (fun _ _ => ?_) fun _ => keeps_throw cause
      exact shelved

theorem Reached.shelved (reached : schema.Reached) : schema.Shelved := by
  induction reached with
  | new database => exact List.Pairwise.nil
  | operate before operation brought ih =>
      cases operation with
      | addTable t => exact keeps_shelved_addTable t _ ih
      | addView v =>
          exact ((keeps_shelved_ensureUnused _).bind fun _ => keeps_shelved_putView _ v) _ ih
      | alterTable name operation => exact keeps_shelved_alterTable name _ _ ih
      | changeView name change => exact keeps_shelved_changeView name change _ ih
      | createAll => exact keeps_shelved_createAll _ ih
      | dropAll => exact keeps_shelved_dropAll _ ih
      | dropTable name =>
          exact ((keeps_shelved_alterTable name .drop).bind fun _ =>
            keeps_shelved_modifyTables _) _ ih
      | renameTable old new => exact keeps_shelved_renameTable old new _ ih
      | discover => exact keeps_shelved_discover _ ih
      | onDatabase action => exact keeps_shelved_onDatabase action _ ih

end Schema

end RowQuery
